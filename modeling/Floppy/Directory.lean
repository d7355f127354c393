import Floppy.Text.Lines

/-!
# Directories

What can be read under a path, and what goes wrong. A `Directory` is a collection of files, which may lie in
directories inside it, in a file system that holds little else.
-/
namespace Floppy

inductive FileError where
  | notFound
  | notDirectory
  | isDirectory
  | nameTooLong
  | zeroByte
  | notText
  | other (cause : String)
deriving DecidableEq, Repr

namespace FileError

def message : FileError → String
  | notFound => "No such file or directory (os error 2)"
  | notDirectory => "Not a directory (os error 20)"
  | isDirectory => "Is a directory (os error 21)"
  | nameTooLong => "File name too long (os error 36)"
  | zeroByte => "file name contained an unexpected NUL byte"
  | notText => Text.notUtf8
  | other cause => cause

def isAbsence : FileError → Bool
  | notFound | notDirectory | nameTooLong | zeroByte => true
  | isDirectory | notText | other _ => false

end FileError

abbrev FileReader := String → Except FileError (Array UInt8)

def textOf (bytes : Array UInt8) : Except FileError String :=
  match Text.Utf8.decode? bytes.toList with
  | some text => .ok (String.ofList text)
  | none => .error .notText

def pathLimit : Nat := 4096

def maxNameSize : Nat := 255

/-- What is wrong with a path, wherever it leads. -/
def pathError? (path : String) : Option FileError :=
  if path.toList.contains '\x00' then some .zeroByte
  else if path = "" then some .notFound
  else if pathLimit ≤ path.utf8ByteSize then some .nameTooLong
  else none

/-- Files by the names on the way to them. Of two files with the same names the first one counts. -/
abbrev Directory := List (List String × Array UInt8)

namespace Directory

/-- A path by its names, from inside the directory. Two points cancel the name before them. -/
def namesOf (path : String) : List String :=
  (path.splitOn "/").foldl (fun names name =>
    if name = "" ∨ name = "." then names
    else if name = ".." then names.dropLast
    else names ++ [name]) []

/-- Puts a file under a path, over the one that is there. The directories on its way need not exist. -/
def put (directory : Directory) (path : String) (bytes : Array UInt8) : Directory :=
  (namesOf path, bytes) :: directory

/-- What the names of a path lead to. -/
inductive Place where
  /-- The directory itself, or one inside it. -/
  | inside (names : List String)
  /-- A directory above it. -/
  | above
  | root
  /-- A directory in the root. -/
  | system (name : String)
  | file (bytes : Array UInt8)

def systemNames : List String :=
  ["bin", "dev", "etc", "home", "lib", "opt", "proc", "root", "run", "sbin", "sys", "tmp", "usr", "var"]

def Place.parent : Place → Place
  | inside [] => above
  | inside names => inside names.dropLast
  | root => root
  | system _ => root
  | _ => above

/-- What a name stands for in a place. The null device is an empty file. -/
def child (directory : Directory) (place : Place) (name : String) : Except FileError Place :=
  match place with
  | .inside names =>
    let names := names ++ [name]
    match directory.lookup names with
    | some bytes => .ok (.file bytes)
    | none => if directory.any (names <+: ·.1) then .ok (.inside names) else .error .notFound
  | .root => if systemNames.contains name then .ok (.system name) else .error .notFound
  | .system parent => if parent = "dev" ∧ name = "null" then .ok (.file #[]) else .error .notFound
  | _ => .error .notFound

/-- One name of a path. An empty one stands for the place itself. -/
def step (directory : Directory) (place : Place) (name : String) : Except FileError Place :=
  match place, name with
  | .file _, _ => .error .notDirectory
  | _, "" => .ok place
  | _, "." => .ok place
  | _, ".." => .ok place.parent
  | _, _ => if maxNameSize < name.utf8ByteSize then .error .nameTooLong else directory.child place name

def read (directory : Directory) : FileReader := fun path =>
  match pathError? path with
  | some e => .error e
  | none => do
    let start : Place := if path.startsWith "/" then .root else .inside []
    match ← (path.splitOn "/").foldlM directory.step start with
    | .file bytes => return bytes
    | _ => throw .isDirectory

end Directory

/-- The path of the directory that holds a file; a lone name lies in the current one. -/
def parentOf (path : String) : String :=
  match (path.toList.reverse.dropWhile (· ≠ '/')).reverse with
  | [] => "."
  | parent => String.ofList parent

end Floppy
