import SchemaScript.Delivery.Basic
import SchemaScript.Text.Path

/-!
# SchemaScript.Delivery.Disk

Directories with files, and delivery into one of them.

A path is walked from a starting directory; its parts are separated by slashes. A directory that a
delivery needs is made together with the directories above it. A name that is delivered replaces
the file of that name and touches nothing else.
-/

namespace SchemaScript

/-- What an operation on files fails with. -/
inductive FileFault where
  | notFound
  | exists
  | notDirectory
  | isDirectory
  | nameTooLong
  | zeroByte
  | notText
deriving DecidableEq, Repr

def FileFault.text : FileFault → String
  | .notFound => "No such file or directory (os error 2)"
  | .exists => "File exists (os error 17)"
  | .notDirectory => "Not a directory (os error 20)"
  | .isDirectory => "Is a directory (os error 21)"
  | .nameTooLong => "File name too long (os error 36)"
  | .zeroByte => "file name contained an unexpected NUL byte"
  | .notText => "stream did not contain valid UTF-8"

/-- The names from the starting directory to a file or directory. -/
abbrev Place := List String

/-- The text of a file; `none` for bytes that are no text. -/
abbrev FileContent := Option String

structure Disk where
  /-- The directories apart from the starting one. -/
  directories : List Place
  files : List (Place × FileContent)
deriving DecidableEq, Repr

namespace Disk

def empty : Disk :=
  ⟨[], []⟩

def isDirectory (d : Disk) (p : Place) : Bool :=
  p.isEmpty || d.directories.contains p

def file? (d : Disk) (p : Place) : Option FileContent :=
  d.files.lookup p

def longestName : Nat :=
  255

/-! ## Paths -/

/-- The place that the parts of a path lead to. Every part but the last must be a directory; an
empty part and a point stay where they are, and two points go one directory up. -/
def walk (d : Disk) (place : Place) : List String → Except FileFault Place
  | [] => .ok place
  | part :: rest =>
    if !d.isDirectory place then .error .notDirectory
    else if part = "" ∨ part = "." then walk d place rest
    else if part = ".." then walk d place.dropLast rest
    else if longestName < part.utf8ByteSize then .error .nameTooLong
    else
      let next := place ++ [part]
      if d.isDirectory next ∨ (d.file? next).isSome then walk d next rest
      else .error .notFound

def hasZero (path : String) : Bool :=
  path.toList.contains '\x00'

/-- The place of an existing file or directory. -/
def locate (d : Disk) (path : String) : Except FileFault Place :=
  if hasZero path then .error .zeroByte
  else if path = "" then .error .notFound
  else d.walk [] (Path.parts path)

/-- The text of a file. -/
def readText (d : Disk) (path : String) : Except FileFault String :=
  match d.locate path with
  | .error f => .error f
  | .ok place =>
    match d.file? place with
    | some (some text) => .ok text
    | some none => .error .notText
    | none => .error .isDirectory

/-! ## Directories -/

/-- Makes a directory in one that exists. -/
def makeOne (d : Disk) (parts : List String) : Except FileFault Disk :=
  match d.walk [] parts.dropLast with
  | .error f => .error f
  | .ok above =>
    if !d.isDirectory above then .error .notDirectory
    else
      match parts.getLast? with
      | none => .error .exists
      | some name =>
        if name = "." ∨ name = ".." then .error .exists
        else if longestName < name.utf8ByteSize then .error .nameTooLong
        else
          let place := above ++ [name]
          if d.isDirectory place ∨ (d.file? place).isSome then .error .exists
          else .ok { d with directories := d.directories ++ [place] }

/-- Whether the parts of a path lead to a directory. -/
def leadsToDirectory (d : Disk) (parts : List String) : Bool :=
  match d.walk [] parts with
  | .ok place => d.isDirectory place
  | .error _ => false

/-- Makes a directory unless it exists, given the reversed parts of its path; where the directory
above is missing, that one is made first. -/
def makeFrom (d : Disk) : List String → Except FileFault Unit × Disk
  | [] => (.ok (), d)
  | name :: above =>
    match d.makeOne (name :: above).reverse with
    | .ok made => (.ok (), made)
    | .error .notFound =>
      match d.makeFrom above with
      | (.error f, d) => (.error f, d)
      | (.ok _, d) =>
        match d.makeOne (name :: above).reverse with
        | .ok made => (.ok (), made)
        | .error f =>
          if d.leadsToDirectory (name :: above).reverse then (.ok (), d) else (.error f, d)
    | .error f =>
      if d.leadsToDirectory (name :: above).reverse then (.ok (), d) else (.error f, d)

def makeDirectory (d : Disk) (path : String) : Except FileFault Unit × Disk :=
  if hasZero path then (.error .zeroByte, d)
  else d.makeFrom (Path.properParts path).reverse

/-! ## Files -/

/-- Gives a file its content, in its place if it exists and else at the end. -/
def putFile (p : Place) (content : FileContent) :
    List (Place × FileContent) → List (Place × FileContent)
  | [] => [(p, content)]
  | (q, old) :: rest => if q = p then (p, content) :: rest else (q, old) :: putFile p content rest

/-- Writes a text to a file of an existing directory. -/
def writeText (d : Disk) (directory : Place) (name text : String) : Except FileFault Disk :=
  if hasZero name then .error .zeroByte
  else if longestName < name.utf8ByteSize then .error .nameTooLong
  else if d.isDirectory (directory ++ [name]) then .error .isDirectory
  else .ok { d with files := putFile (directory ++ [name]) (some text) d.files }

/-- The path of a place, the starting directory having the given path. -/
def placeText (start : String) (p : Place) : String :=
  String.intercalate "/" (start :: p)

/-- A directory that receives deliveries. -/
structure Target where
  /-- The path of the directory where walks start. -/
  start : String
  /-- The path from there. -/
  path : String
  /-- How the directory is called in messages. -/
  label : String
deriving DecidableEq, Repr

def deliver (target : Target) (p : Parcel) :
    StateM Disk (Except DeliveryError Receipt) := fun d =>
  match checkFilename p.filename with
  | .error f => (.error f.toError, d)
  | .ok _ =>
    match d.makeDirectory target.path with
    | (.error f, d) =>
      (.error (.io ("Failed to create directory " ++ target.label ++ ": " ++ f.text)), d)
    | (.ok _, d) =>
      match d.locate target.path with
      | .error f =>
        (.error (.io ("Failed to resolve directory " ++ target.label ++ ": " ++ f.text)), d)
      | .ok directory =>
        let directoryPath := placeText target.start directory
        let path := Path.join directoryPath p.filename
        if !Path.isDirectlyIn directoryPath path then
          (.error (NameFault.escape p.filename).toError, d)
        else
          match d.writeText directory p.filename p.content with
          | .error f =>
            (.error (.io ("Failed to write file " ++ p.filename ++ ": " ++ f.text)), d)
          | .ok d => (.ok (p.receipt path), d)

end Disk
end SchemaScript
