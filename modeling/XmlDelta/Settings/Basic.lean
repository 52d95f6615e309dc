import XmlDelta.Report.View
import XmlDelta.Disk.Path

set_option autoImplicit false

namespace XmlDelta

structure Settings where
  baseDir : Disk.Path := "."
  configFile : Option Disk.Path := none
  format : Report.Format := .human
  verbose : Bool := false
  quiet : Bool := false
  debug : Bool := false
  concurrency : Nat := 1
  failOnChanges : Bool := false

namespace Settings

def verbosity (s : Settings) : Report.Verbosity :=
  if s.quiet then .quiet
  else if s.debug then .debug
  else if s.verbose then .verbose
  else .normal

end Settings

end XmlDelta
