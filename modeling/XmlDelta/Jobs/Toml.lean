import XmlDelta.Compare.Job
import XmlDelta.Toml.Document
import XmlDelta.Toml.Writer

set_option autoImplicit false

namespace XmlDelta.Jobs

open XmlDelta.Compare (Job)
open XmlDelta.Toml (Fault Scalar Table Value)

def jobForm : String := "struct ComparisonJob with 3 elements"

def fits : Scalar → Bool
  | .integer n => -(Number.twoTo 127 : Int) ≤ n && n < Number.twoTo 128
  | .float _ x => x.isInRange
  | _ => true

mutual

def passes : Value → Bool
  | .string _ => true
  | .scalar v => fits v
  | .array vs => passesAll vs
  | .table _ es => passesEntries es
  | .tables ts => passesTables ts

def passesAll : List Value → Bool
  | [] => true
  | v :: vs => passes v && passesAll vs

def passesEntries : List (String × Value) → Bool
  | [] => true
  | (_, v) :: es => passes v && passesEntries es

def passesTables : List (List (String × Value)) → Bool
  | [] => true
  | t :: ts => passesEntries t && passesTables ts

end

def checkOthers (known : List String) (t : Keyed Value) : Except Fault Unit :=
  if (t.filter fun e => !known.contains e.1).all fun e => passes e.2 then .ok ()
  else .error .numberTooLarge

def asString : Value → Except Fault String
  | .string s => .ok s
  | _ => .error (.wrongType "a string")

def asStrings : Value → Except Fault (List String)
  | .array vs => vs.mapM asString
  | _ => .error (.wrongType "a sequence")

def required (name : String) (t : Keyed Value) : Except Fault Value :=
  match Keyed.get? name t with
  | some v => .ok v
  | none => .error (.missingField name)

def jobOfTable (t : Keyed Value) : Except Fault Job := do
  checkOthers ["old_file", "new_file", "tags"] t
  let old ← required "old_file" t >>= asString
  let new ← required "new_file" t >>= asString
  let tags ← required "tags" t >>= asStrings
  return ⟨old, new, tags⟩

def jobOfValue : Value → Except Fault Job
  | .table _ es => jobOfTable es
  | .array (o :: n :: t :: _) => do return ⟨← asString o, ← asString n, ← asStrings t⟩
  | .array vs => .error (.invalidLength vs.length jobForm)
  | _ => .error (.wrongType "struct ComparisonJob")

def jobsOfValue : Value → Except Fault (List Job)
  | .array vs => vs.mapM jobOfValue
  | .tables ts => ts.mapM jobOfTable
  | _ => .error (.wrongType "a sequence")

def jobsOfTable (t : Table) : Except Fault (List Job) := do
  checkOthers ["comparison"] t.entries
  match Keyed.get? "comparison" t.entries with
  | none => return []
  | some v => jobsOfValue v

def ofToml (text : String) : Except Fault (List Job) :=
  Toml.parse text >>= jobsOfTable

def listText (items : List (List Char)) : List Char :=
  match items with
  | [] => ['[', ']']
  | [i] => '[' :: i ++ [']']
  | is => '[' :: '\n' :: is.flatMap (fun i => [' ', ' ', ' ', ' '] ++ i ++ [',', '\n']) ++ [']']

def assignment (name : String) (value : List Char) : List Char :=
  name.toList ++ [' ', '=', ' '] ++ value ++ ['\n']

def jobLines (j : Job) : List Char :=
  "[[comparison]]\n".toList ++ assignment "old_file" (Toml.stringText j.oldFile) ++
    assignment "new_file" (Toml.stringText j.newFile) ++
    assignment "tags" (listText (j.tags.map Toml.stringText))

def toToml (jobs : List Job) : String :=
  if jobs.isEmpty then String.ofList (assignment "comparison" (listText []))
  else String.ofList ((jobs.map jobLines).intersperse ['\n']).flatten

end XmlDelta.Jobs
