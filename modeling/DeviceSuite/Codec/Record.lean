import DeviceSuite.Codec.Basic

/-!
# Records

A record is described once, by the list of its fields, and both its JSON form and its reader
follow from that list. The reader takes the entries of an object in their order, so the first
faulty one is reported, and then looks for missing fields in the order of the list. A record can
also be read from the list of its values.
-/

namespace DeviceSuite

/-- A field of a record: its name, other names it is read under, the value it has when it is
absent, its reader, and its JSON form, if it has one. -/
structure Field where
  Value : Type
  name : String
  aliases : List String
  absent : Option Value
  decode : Decoder Value
  encode : Value → Option Json

namespace Field

/-- A field that must be there. -/
abbrev required {α : Type} (name : String) (c : Codec α) : Field where
  Value := α
  name := name
  aliases := []
  absent := none
  decode := c.decode
  encode value := some (c.encode value)

/-- A field that may be absent and is always written. -/
abbrev defaulted {α : Type} (name : String) (c : Codec α) (default : α) : Field where
  Value := α
  name := name
  aliases := []
  absent := some default
  decode := c.decode
  encode value := some (c.encode value)

/-- A field that may be absent or null, and is written only with a value. -/
abbrev optional {α : Type} (name : String) (c : Codec α) : Field where
  Value := Option α
  name := name
  aliases := []
  absent := some none
  decode source d := match d with
    | .null => .ok none
    | _ => (c.decode source d).map some
  encode value := value.map c.encode

/-- Read a field under another name too. -/
abbrev orNamed (f : Field) (other : String) : Field := { f with aliases := other :: f.aliases }

/-- Whether a key names the field. -/
def answersTo (f : Field) (key : String) : Bool := key == f.name || f.aliases.contains key

end Field

/-- A value for each field. -/
@[reducible] def Row : List Field → Type
  | [] => Unit
  | f :: fs => f.Value × Row fs

/-- A place for the value of each field, filled while the entries are read. -/
@[reducible] def Slots : List Field → Type
  | [] => Unit
  | f :: fs => Option f.Value × Slots fs

namespace Slots

/-- No field has been read. -/
def empty : (fs : List Field) → Slots fs
  | [] => ()
  | _ :: fs => (none, empty fs)

/-- Read one entry into its place. An entry that names no field is skipped. -/
def put (source : Source) (key : String) (d : Document) :
    (fs : List Field) → Slots fs → Except DecodeError (Slots fs)
  | [], slots => match d.skipFault with
    | some f => .error (.fault f)
    | none => .ok slots
  | f :: fs, (value, rest) =>
    if f.answersTo key then
      match value with
      | some _ => .error (.duplicateField f.name)
      | none => do
        let value ← f.decode source d
        .ok (some value, rest)
    else do
      let rest ← put source key d fs rest
      .ok (value, rest)

/-- Read entries in their order. -/
def putAll (source : Source) (fs : List Field) :
    List (Document × Document) → Slots fs → Except DecodeError (Slots fs)
  | [], slots => .ok slots
  | (key, d) :: rest, slots => do
    let name ← liftFault key.keyText
    let slots ← put source name d fs slots
    putAll source fs rest slots

/-- The values of all fields, once the entries are read. -/
def complete : (fs : List Field) → Slots fs → Except DecodeError (Row fs)
  | [], _ => .ok ()
  | f :: fs, (value, rest) =>
    match value.or f.absent with
    | none => .error (.missingField f.name)
    | some value => do
      let row ← complete fs rest
      .ok (value, row)

end Slots

namespace Row

/-- The values of a record from the entries of an object. -/
def ofEntries (source : Source) (fs : List Field) (entries : List (Document × Document))
    (ending : Option Fault) : Except DecodeError (Row fs) := do
  let slots ← Slots.putAll source fs entries (Slots.empty fs)
  let slots ← liftFault (Document.atEnd ending slots)
  slots.complete fs

/-- Report a list that is longer than its record. -/
def rejectLonger {α : Type} (source : Source) (taken length : Nat) : Except DecodeError α :=
  match source with
  | .text => .error (.fault .malformed)
  | .memory => .error (.invalidLength length .fewerItems)
  | .buffer => .error (.invalidLength length (.items taken))

/-- The values of a record from a list of them; fields at the end may be absent. -/
def ofItems (source : Source) (expected : Expected) (ending : Option Fault) :
    (fs : List Field) → Nat → List Document → Except DecodeError (Row fs)
  | [], _, [] => liftFault (Document.atEnd ending ())
  | [], taken, extra => rejectLonger source taken (taken + extra.length)
  | f :: fs, taken, [] =>
    match ending, f.absent with
    | some fault, _ => .error (.fault fault)
    | none, none => .error (.invalidLength taken expected)
    | none, some value => do
      let row ← ofItems source expected ending fs (taken + 1) []
      .ok (value, row)
  | f :: fs, taken, item :: rest => do
    let value ← f.decode source item
    let row ← ofItems source expected ending fs (taken + 1) rest
    .ok (value, row)

/-- The entries of a record in the order of its fields. -/
def entries : (fs : List Field) → Row fs → List (String × Json)
  | [], _ => []
  | f :: fs, (value, rest) =>
    match f.encode value with
    | some json => (f.name, json) :: entries fs rest
    | none => entries fs rest

/-- Read a record from an object, or from a list. -/
def decode (name : RecordName) (fs : List Field) : Decoder (Row fs) := fun source d =>
  match d with
  | .object entries ending => ofEntries source fs entries ending
  | .list items ending => ofItems source (.fields name fs.length) ending fs 0 items
  | _ => d.reject (.record name)

end Row

/-- The codec of a type whose values are the rows of a list of fields. -/
def Codec.record {α : Type} (name : String) (fs : List Field) (build : Row fs → α)
    (take : α → Row fs) : Codec α where
  decode source d := (Row.decode (.type name) fs source d).map build
  encode value := .object (Row.entries fs (take value))

end DeviceSuite
