import PushDelivery.Text.Split

namespace PushDelivery

open Text

inductive FileError where
  | notFound
  | notADirectory
  | isADirectory
  | nameTooLong
  | zeroByte
  /-- The content is no text. -/
  | notText
deriving DecidableEq, Repr

namespace FileError

def message : FileError → String
  | notFound => "No such file or directory (os error 2)"
  | notADirectory => "Not a directory (os error 20)"
  | isADirectory => "Is a directory (os error 21)"
  | nameTooLong => "File name too long (os error 36)"
  | zeroByte => "file name contained an unexpected NUL byte"
  | notText => "stream did not contain valid UTF-8"

end FileError

structure Directory where
  files : List (String × List UInt8)
deriving DecidableEq, Repr

namespace Directory

def empty : Directory := ⟨[]⟩

/-- Where a path has led so far. -/
inductive Place where
  | outside
  | inside
  | file (content : List UInt8)

def maxNameLength : Nat := 255

def maxPathLength : Nat := 4095

def isLong (limit : Nat) (s : String) : Bool :=
  limit < s.utf8ByteSize

/-- One step along a path. An empty name or a single dot stays where it is, except at a file. -/
def enter (d : Directory) (place : Place) (name : String) : Except FileError Place :=
  match place with
  | .file _ => .error .notADirectory
  | .outside =>
    if name = "" ∨ name = "." ∨ name = ".." then .ok .outside
    else if isLong maxNameLength name then .error .nameTooLong
    else .error .notFound
  | .inside =>
    if name = "" ∨ name = "." then .ok .inside
    else if name = ".." then .ok .outside
    else if isLong maxNameLength name then .error .nameTooLong
    else
      match d.files.find? fun f => f.1 == name with
      | some (_, content) => .ok (.file content)
      | none => .error .notFound

def follow (d : Directory) (place : Place) (names : List String) : Except FileError Place :=
  names.foldlM d.enter place

/-- The content of a file. A path that begins with a slash begins outside. -/
def read (d : Directory) (path : String) : Except FileError (List UInt8) :=
  let cs := path.toList
  if cs.contains (Char.ofNat 0) then .error .zeroByte
  else if cs = [] then .error .notFound
  else if isLong maxPathLength path then .error .nameTooLong
  else do
    let start : Place := if cs.head? = some '/' then .outside else .inside
    match ← d.follow start ((split '/' cs).map String.ofList) with
    | .file content => .ok content
    | _ => .error .isADirectory

end Directory

end PushDelivery
