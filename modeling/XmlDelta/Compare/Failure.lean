import XmlDelta.Disk.IoError
import XmlDelta.Disk.Path
import XmlDelta.Text.Quoted

set_option autoImplicit false

namespace XmlDelta.Compare

open XmlDelta.Disk (IoError Path)
open XmlDelta.Text (quoted)

inductive Failure where
  | io (error : IoError)
  | unparsable (file : Path) (details : String)
  | missingFile (path : Path)
  | directorySetup (path : Path) (source : IoError)
  | concurrency (details : String)
  deriving DecidableEq

namespace Failure

def message : Failure → String
  | io e => "IO error: " ++ e.message
  | unparsable f d => "Error parsing XML file: " ++ f ++ " - " ++ d
  | missingFile p => "File does not exist: " ++ p
  | directorySetup p e => "Failed to create directory " ++ p ++ ": " ++ e.message
  | concurrency d => "Concurrent operation error: " ++ d

def isFatal : Failure → Bool
  -- Only a failure to set up the directories ends the whole run.
  | directorySetup _ _ => true
  | _ => false

def cause? : Failure → Option IoError
  | io e => some e
  | directorySetup _ e => some e
  | _ => none

def debug : Failure → String
  | io e => "Io(" ++ e.debug ++ ")"
  | unparsable f d => "ParseFailure \x7b file: " ++ quoted f ++ ", details: " ++ quoted d ++ " \x7d"
  | missingFile p => "MissingFile \x7b path: " ++ quoted p ++ " \x7d"
  | directorySetup p e =>
    "DirectorySetup \x7b path: " ++ quoted p ++ ", source: " ++ e.debug ++ " \x7d"
  | concurrency d => "Concurrency \x7b details: " ++ quoted d ++ " \x7d"

end Failure

end XmlDelta.Compare
