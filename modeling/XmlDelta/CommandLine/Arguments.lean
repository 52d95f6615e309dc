import XmlDelta.CommandLine.Options
import XmlDelta.Text.Count

set_option autoImplicit false

namespace XmlDelta.CommandLine

inductive Flag where
  | verbose
  | quiet
  | debug
  | failOnChanges
  | help
  | version
  deriving DecidableEq

inductive Setting where
  | baseDir
  | config
  | oldFile
  | newFile
  | tag
  | saveConfig
  | format
  | jobs
  deriving DecidableEq

inductive Switch where
  | flag (f : Flag)
  | setting (s : Setting)

def longNames : Keyed Switch :=
  [("base-dir", .setting .baseDir), ("config", .setting .config), ("old", .setting .oldFile),
    ("new", .setting .newFile), ("tag", .setting .tag), ("save-config", .setting .saveConfig),
    ("format", .setting .format), ("jobs", .setting .jobs), ("verbose", .flag .verbose),
    ("quiet", .flag .quiet), ("debug", .flag .debug), ("fail-on-changes", .flag .failOnChanges),
    ("help", .flag .help), ("version", .flag .version)]

def ofLetter? (c : Char) : Option Switch :=
  if c = 'b' then some (.setting .baseDir)
  else if c = 'c' then some (.setting .config)
  else if c = 'f' then some (.setting .format)
  else if c = 'j' then some (.setting .jobs)
  else if c = 'v' then some (.flag .verbose)
  else if c = 'q' then some (.flag .quiet)
  else if c = 'h' then some (.flag .help)
  else if c = 'V' then some (.flag .version)
  else none

inductive Refusal where
  | unknownArgument
  | invalidValue
  | valueValidation
  | tooManyValues
  | conflict
  | missingRequired
  | helpAsked
  | versionAsked
  deriving DecidableEq

namespace Options

def once {α : Type} (place : Option α) (value : Except Refusal α) : Except Refusal (Option α) :=
  if place.isSome then .error .conflict else value.map some

def pathValue (v : String) : Except Refusal Disk.Path :=
  if v = "" then .error .invalidValue else .ok v

def formatValue (v : String) : Except Refusal Report.Format :=
  match Report.Format.ofName? v with
  | some f => .ok f
  | none => .error .invalidValue

def countValue (v : String) : Except Refusal Nat :=
  match Text.count? v with
  | some n => .ok n
  | none => .error .valueValidation

def give (o : Options) (s : Setting) (v : String) : Except Refusal Options :=
  match s with
  | .baseDir => (once o.baseDir (pathValue v)).map fun x => { o with baseDir := x }
  | .config => (once o.config (pathValue v)).map fun x => { o with config := x }
  | .oldFile => (once o.oldFile (.ok v)).map fun x => { o with oldFile := x }
  | .newFile => (once o.newFile (.ok v)).map fun x => { o with newFile := x }
  | .tag => .ok { o with tagLists := o.tagLists ++ [v] }
  | .saveConfig => (once o.saveConfig (pathValue v)).map fun x => { o with saveConfig := x }
  | .format => (once o.format (formatValue v)).map fun x => { o with format := x }
  | .jobs => (once o.jobs (countValue v)).map fun x => { o with jobs := x }

def raise (o : Options) (f : Flag) : Except Refusal Options :=
  let fresh (given : Bool) (o' : Options) : Except Refusal Options :=
    if given then .error .conflict else .ok o'
  match f with
  | .verbose => fresh o.verbose { o with verbose := true }
  | .quiet => fresh o.quiet { o with quiet := true }
  | .debug => fresh o.debug { o with debug := true }
  | .failOnChanges => fresh o.failOnChanges { o with failOnChanges := true }
  | .help => .error .helpAsked
  | .version => .error .versionAsked

def hasConflict (o : Options) : Bool :=
  o.quiet && (o.verbose || o.debug)

def lacksRequired (o : Options) : Bool :=
  -- An old file needs a new file, each needs the other, and both need tags.
  (o.oldFile.isSome || o.newFile.isSome) &&
    (o.oldFile.isNone || o.newFile.isNone || o.tagLists.isEmpty)

end Options

structure Draft where
  options : Options := {}
  open? : Option (Setting × Option String) := none

namespace Draft

def settle (d : Draft) : Except Refusal Options :=
  match d.open? with
  | none => .ok d.options
  | some (_, none) => .error .invalidValue
  | some (s, some v) => d.options.give s v

def awaits (d : Draft) : Option Setting :=
  match d.open? with
  | some (s, none) => some s
  | _ => none

def flag (d : Draft) (f : Flag) : Except Refusal Draft := do
  return ⟨← (← d.settle).raise f, none⟩

def setting (d : Draft) (s : Setting) (value : Option String) : Except Refusal Draft := do
  let o ← d.settle
  match value with
  | none => return ⟨o, some (s, none)⟩
  | some v => return ⟨← o.give s v, none⟩

def long (d : Draft) (body : List Char) : Except Refusal Draft :=
  let name := body.takeWhile (· != '=')
  let value := (body.drop name.length).tail?.map String.ofList
  match Keyed.get? (String.ofList name) longNames, value with
  | none, _ => .error .unknownArgument
  | some (.flag f), none => d.flag f
  | some (.flag _), some _ => .error .tooManyValues
  | some (.setting s), v => d.setting s v

def short (d : Draft) : List Char → Except Refusal Draft
  | [] => .ok d
  | c :: r =>
    match ofLetter? c with
    | none => .error .unknownArgument
    | some (.flag f) => d.flag f >>= fun d => d.short r
    | some (.setting s) =>
      match r with
      | [] => d.setting s none
      | '=' :: v => d.setting s (some (String.ofList v))
      | v => d.setting s (some (String.ofList v))

def value (d : Draft) (arg : String) : Except Refusal Draft :=
  match d.awaits with
  | some s => .ok { d with open? := some (s, some arg) }
  | none => .error .unknownArgument

def read (d : Draft) : List String → Except Refusal Draft
  | [] => .ok d
  | arg :: rest =>
    match arg.toList with
    -- Nothing may stand behind a lone double dash, as there are no positional arguments.
    | ['-', '-'] => if rest.isEmpty then .ok d else .error .unknownArgument
    | '-' :: '-' :: body => d.long body >>= fun d => d.read rest
    | '-' :: c :: body => d.short (c :: body) >>= fun d => d.read rest
    | _ => d.value arg >>= fun d => d.read rest

end Draft

def parse (args : List String) : Except Refusal Options := do
  let d ← Draft.read {} args
  let o ← d.settle
  if o.hasConflict then .error .conflict
  else if o.lacksRequired then .error .missingRequired
  else .ok o

end XmlDelta.CommandLine
