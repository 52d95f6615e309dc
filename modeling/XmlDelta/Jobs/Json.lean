import XmlDelta.Compare.Job
import XmlDelta.Json.Skip
import XmlDelta.Json.Value
import XmlDelta.Text.Quoted

set_option autoImplicit false

namespace XmlDelta.Jobs

open XmlDelta.Compare (Job)
open XmlDelta.Json

def typeFault (expected : String) (s : List Char) : Fault :=
  -- The fault of a value where another type is expected; scalars are read to their end first.
  let wrong (found : String) : Fault := .invalidType found expected
  let after {α : Type} (r : Except Fault α) (f : α → String) : Fault :=
    match r with
    | .ok a => wrong (f a)
    | .error e => e
  match s with
  | [] => .expectedValue
  | c :: r =>
    if c = 'n' then after (readWord ['u', 'l', 'l'] r) fun _ => "null"
    else if c = 't' then after (readWord ['r', 'u', 'e'] r) fun _ => "boolean `true`"
    else if c = 'f' then after (readWord ['a', 'l', 's', 'e'] r) fun _ => "boolean `false`"
    else if c = '-' then after (readNumber true r) fun p => p.1.description
    else if Text.isDigit c then after (readNumber false s) fun p => p.1.description
    else if c = '"' then after (readText r) fun p => "string " ++ Text.quoted p.1
    else if c = '[' then wrong "sequence"
    else if c = '\x7b' then wrong "map"
    else .expectedValue

def readString (s : List Char) : Except Fault (String × List Char) :=
  match skipSpace s with
  | [] => .error .eofValue
  | c :: r => if c = '"' then readText r else .error (typeFault "a string" (c :: r))

def nextItem (first : Bool) (s : List Char) : Except Fault (Option (List Char)) :=
  match skipSpace s with
  | [] => .error .eofList
  | c :: r =>
    if c = ']' then .ok none
    else if first then .ok (some (c :: r))
    else if c = ',' then
      match skipSpace r with
      | [] => .error .eofValue
      | d :: t => if d = ']' then .error .trailingComma else .ok (some (d :: t))
    else .error .expectedListComma

def endList (s : List Char) : Except Fault (List Char) :=
  match skipSpace s with
  | [] => .error .eofList
  | c :: r =>
    if c = ']' then .ok r
    else if c = ',' then
      match skipSpace r with
      | d :: _ => if d = ']' then .error .trailingComma else .error .trailingCharacters
      | [] => .error .trailingCharacters
    else .error .trailingCharacters

def readItems {α : Type} (item : List Char → Reading α) (fuel : Nat) (seen : List α)
    (s : List Char) : Except Fault (List α × List Char) :=
  match fuel with
  | 0 => .error .eofList
  | n + 1 => do
    match ← nextItem seen.isEmpty s with
    | none => return (seen.reverse, ← endList s)
    | some t =>
      let (a, r) ← item t
      readItems item n (a :: seen) r

def readList {α : Type} (item : List Char → Reading α) (s : List Char) :
    Except Fault (List α × List Char) :=
  match skipSpace s with
  | [] => .error .eofValue
  | c :: r =>
    if c = '[' then readItems item (s.length + 1) [] r
    else .error (typeFault "a sequence" (c :: r))

def jobType : String := "struct ComparisonJob"

def readPart {α : Type} (item : List Char → Reading α) (count : Nat) (s : List Char) :
    Except Fault (α × List Char) := do
  match ← nextItem (count == 0) s with
  | none => .error (.invalidLength count (jobType ++ " with 3 elements"))
  | some t => item t

def readJobList (s : List Char) : Except Fault (Job × List Char) := do
  let (old, s) ← readPart readString 0 s
  let (new, s) ← readPart readString 1 s
  let (tags, s) ← readPart (readList readString) 2 s
  return (⟨old, new, tags⟩, ← endList s)

structure Fields where
  oldFile : Option String := none
  newFile : Option String := none
  tags : Option (List String) := none

def Fields.job (f : Fields) : Except Fault Job :=
  match f.oldFile, f.newFile, f.tags with
  | none, _, _ => .error (.missingField "old_file")
  | _, none, _ => .error (.missingField "new_file")
  | _, _, none => .error (.missingField "tags")
  | some o, some n, some t => .ok ⟨o, n, t⟩

def nextKey (first : Bool) (s : List Char) : Except Fault (Option (String × List Char)) :=
  match skipSpace s with
  | [] => .error .eofObject
  | c :: r =>
    if c = '\x7d' then .ok none
    else if first then
      if c = '"' then (readText r).map some else .error .keyNotString
    else if c = ',' then
      match skipSpace r with
      | [] => .error .eofValue
      | d :: t =>
        if d = '"' then (readText t).map some
        else if d = '\x7d' then .error .trailingComma
        else .error .keyNotString
    else .error .expectedObjectComma

def readColon (s : List Char) : Except Fault (List Char) :=
  match skipSpace s with
  | [] => .error .eofObject
  | c :: r => if c = ':' then .ok r else .error .expectedColon

def endObject (s : List Char) : Except Fault (List Char) :=
  match skipSpace s with
  | [] => .error .eofObject
  | c :: r =>
    if c = '\x7d' then .ok r
    else if c = ',' then .error .trailingComma
    else .error .trailingCharacters

def readField (f : Fields) (key : String) (s : List Char) : Except Fault (Fields × List Char) :=
  if key = "old_file" then
    if f.oldFile.isSome then .error (.duplicateField key)
    else do
      let (v, r) ← readColon s >>= readString
      return ({ f with oldFile := some v }, r)
  else if key = "new_file" then
    if f.newFile.isSome then .error (.duplicateField key)
    else do
      let (v, r) ← readColon s >>= readString
      return ({ f with newFile := some v }, r)
  else if key = "tags" then
    if f.tags.isSome then .error (.duplicateField key)
    else do
      let (v, r) ← readColon s >>= readList readString
      return ({ f with tags := some v }, r)
  else do
    let r ← readColon s >>= skipValue
    return (f, r)

def readFields (fuel : Nat) (first : Bool) (f : Fields) (s : List Char) :
    Except Fault (Job × List Char) :=
  match fuel with
  | 0 => .error .eofObject
  | n + 1 => do
    match ← nextKey first s with
    | none => return (← f.job, ← endObject s)
    | some (key, r) =>
      let (f, r) ← readField f key r
      readFields n false f r

def readJob (s : List Char) : Except Fault (Job × List Char) :=
  match skipSpace s with
  | [] => .error .eofValue
  | c :: r =>
    if c = '[' then readJobList r
    else if c = '\x7b' then readFields (r.length + 1) true {} r
    else .error (typeFault jobType (c :: r))

def ofJson (text : String) : Except Fault (List Job) := do
  let (jobs, r) ← readList readJob text.toList
  if (skipSpace r).isEmpty then .ok jobs else .error .trailingCharacters

def jobValue (j : Job) : Value :=
  .object [("old_file", .string j.oldFile), ("new_file", .string j.newFile),
    ("tags", .list (j.tags.map .string))]

def toJson (jobs : List Job) : String :=
  (Value.list (jobs.map jobValue)).text 4

end XmlDelta.Jobs
