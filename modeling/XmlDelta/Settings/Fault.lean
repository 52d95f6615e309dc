import XmlDelta.Disk.IoError
import XmlDelta.Json.Fault
import XmlDelta.Text.Quoted
import XmlDelta.Toml.Fault

set_option autoImplicit false

namespace XmlDelta.Settings

open XmlDelta.Disk (IoError)
open XmlDelta.Text (quoted)

inductive Fault where
  | io (error : IoError)
  | json (fault : Json.Fault)
  | toml (fault : Toml.Fault)
  | invalid (details : String)
  | environment (details : String)
  | unsupportedFormat (extension : String)
  deriving DecidableEq

namespace Fault

def message : Fault → String
  | io e => "IO error: " ++ e.message
  | json f => "JSON parsing error: " ++ f.message
  | toml f => "TOML parsing error: " ++ f.message
  | invalid d => "Configuration validation error: " ++ d
  | environment d => "Environment variable error: " ++ d
  | unsupportedFormat e => "Unsupported configuration file format: " ++ e

def debug : Fault → String
  | io e => "Io(" ++ e.debug ++ ")"
  | json f => "JsonParsing(Error(" ++ quoted f.message ++ "))"
  | toml f => "TomlParsing(" ++ f.message ++ ")"
  | invalid d => "Validation(" ++ quoted d ++ ")"
  | environment d => "Environment(" ++ quoted d ++ ")"
  | unsupportedFormat e => "UnsupportedFormat(" ++ quoted e ++ ")"

def advice : Fault → String
  | io _ => "Check that the configuration file exists and is readable"
  | json _ =>
    "Expected a JSON array of \x7b\"old_file\", \"new_file\", \"tags\"\x7d objects"
  | toml _ => "Expected [[comparison]] tables with old_file, new_file and tags"
  | invalid _ => "Check the --jobs value and the verbosity flags"
  | environment _ => "Fix or unset the XML_COMPARE_* environment variable"
  | unsupportedFormat _ => "Use a .json or .toml configuration file"

end Fault

end XmlDelta.Settings
