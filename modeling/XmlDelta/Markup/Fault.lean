import XmlDelta.Markup.Attribute
import XmlDelta.Markup.Reference
import XmlDelta.Text.Encoding

set_option autoImplicit false

namespace XmlDelta.Markup

open XmlDelta.Text (Encoding)

inductive MarkupFault where
  | scan (fault : ScanFault)
  | unmatchedEnd (name : String)
  | mismatchedEnd (expected found : String)
  deriving DecidableEq

namespace MarkupFault

def message : MarkupFault → String
  | scan f => f.message
  | unmatchedEnd name =>
    s!"ill-formed document: close tag `</{name}>` does not match any open tag"
  | mismatchedEnd expected found =>
    s!"ill-formed document: expected `</{expected}>`, but `</{found}>` was found"

end MarkupFault

inductive DocumentFault where
  | markup (fault : MarkupFault) (offset : Nat)
  | badAttribute (fault : AttributeFault)
  | badReference (fault : ReferenceFault)
  | undecodable (encoding : Encoding)
  | secondRoot
  | textOutsideRoot
  | cdataOutsideRoot
  | unexpectedEnd
  | unclosed (tag : String)
  | noRoot
  deriving DecidableEq

namespace DocumentFault

def message : DocumentFault → String
  | markup f offset => s!"{f.message} (at byte {offset})"
  | badAttribute f => f.message
  | badReference f => f.message
  | undecodable e => s!"cannot decode input using {e.name}"
  | secondRoot => "junk after document element"
  | textOutsideRoot => "character data outside the root element"
  | cdataOutsideRoot => "CDATA section outside the root element"
  | unexpectedEnd => "unexpected closing tag"
  | unclosed tag => s!"unclosed element <{tag}>"
  | noRoot => "no root element found"

end DocumentFault

end XmlDelta.Markup
