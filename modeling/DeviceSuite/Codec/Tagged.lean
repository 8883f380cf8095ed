import DeviceSuite.Codec.Choice
import DeviceSuite.Codec.Record

/-!
# Tagged unions

The variants of a union are records told apart by a tag, one more entry of the object. Since the
tag may stand anywhere, the other entries are buffered until the end of the object, and what is
wrong with them is reported only then. A list begins with the tag.
-/

namespace DeviceSuite

/-- A variant of a union: its tag, the record of its fields, and how the variant is put together
from them and taken apart. A variant without list form is read from objects only. -/
structure Variant (α : Type) where
  tag : String
  record : RecordName
  fields : List Field
  hasListForm : Bool
  build : Row fields → α
  take : α → Option (Row fields)

namespace Variant

variable {α : Type}

/-- Read the fields of a variant from buffered content. -/
def decode (v : Variant α) (d : Document) : Except DecodeError α :=
  match d with
  | .list _ _ =>
    if v.hasListForm then (Row.decode v.record v.fields .buffer d).map v.build
    else d.reject (.record v.record)
  | _ => (Row.decode v.record v.fields .buffer d).map v.build

/-- The entries of a value, if it is of the variant. -/
def entries? (v : Variant α) (value : α) : Option (List (String × Json)) :=
  (v.take value).map (Row.entries v.fields)

end Variant

/-- Buffered content has no faults. -/
def checkContent (d : Document) : Except DecodeError Unit :=
  (liftFault d.toJson).map fun _ => ()

/-- The readers of the variants by their tags. -/
abbrev ContentReaders (α : Type) := List (String × (Document → Except DecodeError α))

/-- Buffer entries in their order and pick out the tag. -/
def splitTag {α : Type} (tag : String) (readers : ContentReaders α) :
    Option (Document → Except DecodeError α) → List (Document × Document) →
      Except DecodeError
        (Option (Document → Except DecodeError α) × List (Document × Document))
  | found, [] => .ok (found, [])
  | found, (key, d) :: rest => do
    let name ← liftFault key.keyText
    if name = tag then
      if found.isSome then .error (.duplicateField tag)
      else do
        let reader ← decodeNamed readers d
        splitTag tag readers (some reader) rest
    else do
      checkContent d
      let (found, content) ← splitTag tag readers found rest
      .ok (found, (key, d) :: content)

/-- Read a union from an object or from a list. -/
def decodeTagged {α : Type} (name tag : String) (readers : ContentReaders α) : Decoder α :=
  fun _ d =>
    match d with
    | .object entries ending => do
      let (found, content) ← splitTag tag readers none entries
      let found ← liftFault (Document.atEnd ending found)
      match found with
      | none => .error (.missingField tag)
      | some reader => reader (.object content none)
    | .list [] ending => do
      liftFault (Document.atEnd ending ())
      .error (.missingField tag)
    | .list (first :: rest) ending => do
      let reader ← decodeNamed readers first
      checkContent (.list rest ending)
      reader (.list rest none)
    | _ => d.reject (.tagged name)

/-- The object of a value: the tag of its variant, then its fields. -/
def encodeTagged {α : Type} (tag : String) (variants : List (Variant α)) (value : α) : Json :=
  match variants.findSome? fun v => (v.entries? value).map fun entries => (v.tag, entries) with
  | some (name, entries) => .object ((tag, .text name) :: entries)
  | none => .null

/-- The codec of a union. -/
def Codec.tagged {α : Type} (name tag : String) (variants : List (Variant α)) : Codec α where
  decode := decodeTagged name tag (variants.map fun v => (v.tag, v.decode))
  encode := encodeTagged tag variants

end DeviceSuite
