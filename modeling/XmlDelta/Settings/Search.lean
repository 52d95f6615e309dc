import XmlDelta.Settings.Resolve
import XmlDelta.Text.Split

set_option autoImplicit false

namespace XmlDelta.Settings

open XmlDelta.Disk (Path Tree)

def configNames : List String :=
  ["comparison_config.json", "comparison_config.toml"]

def fields (sep : Char) (line : List Char) : List String :=
  (Text.split sep line).map String.ofList

def userId? (status : String) : Option String :=
  (Text.split '\n' status.toList).findSome? fun line =>
    match fields '\t' line with
    | "Uid:" :: id :: _ => some id
    | _ => none

def homeOf? (accounts id : String) : Option Path :=
  (Text.split '\n' accounts.toList).findSome? fun line =>
    match fields ':' line with
    | [_, _, other, _, _, home, _] => if other = id then some home else none
    | _ => none

def statusFile : Path := "/proc/self/status"
def accountsFile : Path := "/etc/passwd"

def accountPaths : List Path :=
  [statusFile, accountsFile]

def accountHome? (t : Tree) : Option Path := do
  let status ← (t.readText statusFile).toOption
  let accounts ← (t.readText accountsFile).toOption
  homeOf? accounts (← userId? status)

def userDirectory? (env : Environment) (account : Option Path) : Option Path :=
  match (Keyed.get? "XDG_CONFIG_HOME" env).filter Path.isAbsolute with
  | some p => some p
  | none =>
    -- Without `HOME` it is the home directory of the account that runs the program.
    let home := ((Keyed.get? "HOME" env).filter (· != "")).or (account.filter (· != ""))
    home.map (Path.join · ".config")

def candidates (env : Environment) (account : Option Path) (s : Settings) : List Path :=
  let user := (userDirectory? env account).map (Path.join · "xml-compare")
  (s.baseDir :: user.toList).flatMap fun d => configNames.map (Path.join d)

def findConfig (env : Environment) (t : Tree) (s : Settings) : Option Path :=
  s.configFile.orElse fun _ => (candidates env (accountHome? t) s).find? t.pathExists

end XmlDelta.Settings
