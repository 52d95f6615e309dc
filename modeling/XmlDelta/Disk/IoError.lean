import XmlDelta.Text.Quoted

set_option autoImplicit false

namespace XmlDelta.Disk

open XmlDelta.Text (quoted)

inductive IoKind where
  | notFound
  | permissionDenied
  | alreadyExists
  | notADirectory
  | isADirectory
  | invalidFilename
  | invalidInput
  | invalidData
  | other
  deriving DecidableEq

namespace IoKind

def name : IoKind → String
  | notFound => "NotFound"
  | permissionDenied => "PermissionDenied"
  | alreadyExists => "AlreadyExists"
  | notADirectory => "NotADirectory"
  | isADirectory => "IsADirectory"
  | invalidFilename => "InvalidFilename"
  | invalidInput => "InvalidInput"
  | invalidData => "InvalidData"
  | other => "Uncategorized"

def message : IoKind → String
  | notFound => "entity not found"
  | permissionDenied => "permission denied"
  | alreadyExists => "entity already exists"
  | notADirectory => "not a directory"
  | isADirectory => "is a directory"
  | invalidFilename => "invalid filename"
  | invalidInput => "invalid input parameter"
  | invalidData => "invalid data"
  | other => "uncategorized error"

end IoKind

inductive IoError where
  | system (code : Nat)
  | bare (kind : IoKind)
  | fixed (kind : IoKind) (text : String)
  | custom (kind : IoKind) (text : String)
  deriving DecidableEq

namespace IoError

def absent : IoError := system 2
def denied : IoError := system 13
def occupied : IoError := system 17
def notDirectory : IoError := system 20
def isDirectory : IoError := system 21
def nameTooLong : IoError := system 36
def nulInPath : IoError := fixed .invalidInput "file name contained an unexpected NUL byte"
def notUtf8 : IoError := fixed .invalidData "stream did not contain valid UTF-8"

def systemText : Nat → String × IoKind
  | 1 => ("Operation not permitted", .permissionDenied)
  | 2 => ("No such file or directory", .notFound)
  | 5 => ("Input/output error", .other)
  | 13 => ("Permission denied", .permissionDenied)
  | 17 => ("File exists", .alreadyExists)
  | 20 => ("Not a directory", .notADirectory)
  | 21 => ("Is a directory", .isADirectory)
  | 22 => ("Invalid argument", .invalidInput)
  | 36 => ("File name too long", .invalidFilename)
  | n => (s!"Unknown error {n}", .other)

def kind : IoError → IoKind
  | system n => (systemText n).2
  | bare k => k
  | fixed k _ => k
  | custom k _ => k

def message : IoError → String
  | system n => s!"{(systemText n).1} (os error {n})"
  | bare k => k.message
  | fixed _ t => t
  | custom _ t => t

def debug : IoError → String
  | system n => "Os \x7b code: " ++ toString n ++ ", kind: " ++ (systemText n).2.name ++
      ", message: " ++ quoted (systemText n).1 ++ " \x7d"
  | bare k => "Kind(" ++ k.name ++ ")"
  | fixed k t => "Error \x7b kind: " ++ k.name ++ ", message: " ++ quoted t ++ " \x7d"
  | custom k t => "Custom \x7b kind: " ++ k.name ++ ", error: " ++ quoted t ++ " \x7d"

end IoError

end XmlDelta.Disk
