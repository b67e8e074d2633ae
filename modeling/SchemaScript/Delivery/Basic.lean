import SchemaScript.Text.Blank

/-!
# SchemaScript.Delivery.Basic

Delivery of finished texts: the names that are accepted, what a delivery can fail with, and the
receipt of one that succeeded.

A name must not be blank, and it must not have a path separator or two points in a row.
-/

namespace SchemaScript

inductive DeliveryError where
  | invalidFilename (reason : String)
  | io (reason : String)
  | backend (reason : String)
deriving DecidableEq, Repr

def DeliveryError.message : DeliveryError → String
  | .invalidFilename reason => "Invalid filename: " ++ reason
  | .io reason => "IO error: " ++ reason
  | .backend reason => "Delivery backend error: " ++ reason

/-- Why a name is refused. -/
inductive NameFault where
  | blank
  | separator (name : String)
  | parent (name : String)
  /-- The name denotes the directory itself. -/
  | escape (name : String)
deriving DecidableEq, Repr

namespace NameFault

def text : NameFault → String
  | .blank => "empty filename"
  | .separator name => "path separators not allowed: " ++ name
  | .parent name => "path traversal (..) not allowed: " ++ name
  | .escape name => "Path escapes base directory: " ++ name

def toError (f : NameFault) : DeliveryError :=
  .invalidFilename f.text

end NameFault

/-- Whether two points follow each other. -/
def hasTwoPoints : List Char → Bool
  | '.' :: '.' :: _ => true
  | _ :: rest => hasTwoPoints rest
  | [] => false

def checkFilename (name : String) : Except NameFault Unit :=
  if Text.allBlank name then .error .blank
  else if name.toList.any fun c => c = '/' ∨ c = '\\' then .error (.separator name)
  else if hasTwoPoints name.toList then .error (.parent name)
  else .ok ()

/-- A text to be delivered. -/
structure Parcel where
  content : String
  filename : String
  mimeType : String
deriving DecidableEq, Repr

structure Receipt where
  filename : String
  mimeType : String
  /-- Where the text went. -/
  location : String
  /-- The size of the content in UTF-8. -/
  bytes : Nat
deriving DecidableEq, Repr

def Parcel.receipt (p : Parcel) (location : String) : Receipt :=
  ⟨p.filename, p.mimeType, location, p.content.utf8ByteSize⟩

/-! ## Delivery into memory -/

/-- The parcels delivered so far, the first one first. -/
structure Shelf where
  parcels : List Parcel
deriving DecidableEq, Repr

namespace Shelf

def empty : Shelf :=
  ⟨[]⟩

/-- Puts a parcel at the end of the shelf. -/
def deliver (p : Parcel) : StateM Shelf (Except DeliveryError Receipt) := fun s =>
  match checkFilename p.filename with
  | .error f => (.error f.toError, s)
  | .ok _ => (.ok (p.receipt ("memory://" ++ p.filename)), ⟨s.parcels ++ [p]⟩)

end Shelf
end SchemaScript
