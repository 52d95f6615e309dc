import XmlDelta.Keyed
import XmlDelta.Report.View
import XmlDelta.Text.Split

set_option autoImplicit false

namespace XmlDelta.Run

inductive Level where
  | error
  | warn
  | info
  | debug
  | trace
  deriving DecidableEq

namespace Level

def all : List Level := [error, warn, info, debug, trace]

def name : Level → String
  | error => "ERROR"
  | warn => "WARN"
  | info => "INFO"
  | debug => "DEBUG"
  | trace => "TRACE"

def rank : Level → Nat
  | error => 1
  | warn => 2
  | info => 3
  | debug => 4
  | trace => 5

end Level

structure Record where
  level : Level
  message : String
  fields : Keyed String

def Record.line (r : Record) : String :=
  r.level.name ++ " " ++ r.message ++
    String.join (r.fields.map fun f => " " ++ f.1 ++ "=" ++ f.2)

abbrev Filter := Option Level

def Filter.keeps (f : Filter) (r : Record) : Bool :=
  f.any fun l => r.level.rank ≤ l.rank

def levelOf : Report.Verbosity → Level
  | .quiet => .error
  | .normal => .warn
  | .verbose => .info
  | .debug => .debug

def upper (cs : List Char) : String :=
  String.ofList (cs.map Char.toUpper)

def lower (s : String) : String :=
  String.ofList (s.toList.map Char.toLower)

def directiveOf (v : Report.Verbosity) : String :=
  "xml_compare=" ++ lower (levelOf v).name

def filterNamed? (cs : List Char) : Option Filter :=
  if upper cs = "OFF" then some none
  else (Level.all.find? fun l => l.name == upper cs).map some

def filterOf? (directive : String) : Option Filter :=
  -- A directive is a level, or a level for this program; others are not understood.
  match Text.split '=' directive.toList with
  | [l] => filterNamed? l
  | [target, l] => if String.ofList target = "xml_compare" then filterNamed? l else none
  | _ => none

def filterFor (directive : Option String) (v : Report.Verbosity) : Filter :=
  (directive.bind filterOf?).getD (some (levelOf v))

end XmlDelta.Run
