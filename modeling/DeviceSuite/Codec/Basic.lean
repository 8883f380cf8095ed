import DeviceSuite.Codec.Error
import DeviceSuite.Instant.Printer
import DeviceSuite.Json.Reader

/-!
# Codecs

A codec pairs the JSON form of a type with the reader of that form. A reader is told where its
document comes from, because the same mistake is worded differently, or is no mistake, in a text,
in a value in memory and in the buffered content of a tagged object.
-/

namespace DeviceSuite

/-- Where a document comes from. -/
inductive Source where
  | text
  | memory
  | buffer
  deriving DecidableEq, Repr

/-- A reader of documents. -/
abbrev Decoder (α : Type) := Source → Document → Except DecodeError α

/-- A type's JSON form and its reader. -/
structure Codec (α : Type) where
  decode : Decoder α
  encode : α → Json

/-- Report a document of the wrong type; a broken document reports its own fault. -/
def Document.reject {α : Type} (expected : Expected) : Document → Except DecodeError α
  | .null => .error (.invalidType .null expected)
  | .bool b => .error (.invalidType (.bool b) expected)
  | .int n => .error (.invalidType (.int n) expected)
  | .real x => .error (.invalidType (.real x) expected)
  | .text s => .error (.invalidType (.text s) expected)
  | .list _ _ => .error (.invalidType .sequence expected)
  | .object _ _ => .error (.invalidType .map expected)
  | .missing f => .error (.fault f)
  | .brokenText reading _ => .error (.fault reading)
  | .broken reading _ => .error (.fault reading)

/-- Carry a fault of the text into a decoding error. -/
def liftFault {α : Type} : Except Fault α → Except DecodeError α
  | .ok a => .ok a
  | .error f => .error (.fault f)

namespace Codec

/-- A value from a value in memory. -/
def ofJson {α : Type} (c : Codec α) (value : Json) : Except DecodeError α :=
  c.decode .memory (.ofJson value)

/-- A value from a text, which holds nothing else. -/
def ofReading {α : Type} (c : Codec α) (reading : Reading) : Except DecodeError α := do
  let value ← c.decode .text reading.root
  if reading.trailing then .error (.fault .malformed) else .ok value

/-- A value from the characters of a text. -/
def ofText {α : Type} (c : Codec α) (s : String) : Except DecodeError α :=
  c.ofReading (Reading.ofString s)

/-- Text. -/
def string : Codec String where
  decode _ d := match d with
    | .text s => .ok s
    | _ => d.reject .text
  encode := .text

/-- Truth values. -/
def bool : Codec Bool where
  decode _ d := match d with
    | .bool b => .ok b
    | _ => d.reject .boolean
  encode := .bool

/-- An integer between bounds. -/
def decodeInteger (name : String) (least greatest : Int) (d : Document) :
    Except DecodeError Int :=
  match d with
  | .int n =>
    if least ≤ n ∧ n ≤ greatest then .ok n
    else .error (.invalidValue (.int n) (.integer name))
  | _ => d.reject (.integer name)

/-- Unsigned integers of 32 bits. -/
def uint32 : Codec UInt32 where
  decode _ d := (decodeInteger "u32" 0 0xffffffff d).map fun n => .ofNat n.toNat
  encode n := .int n.toNat

/-- Unsigned integers of 64 bits. -/
def uint64 : Codec UInt64 where
  decode _ d := (decodeInteger "u64" 0 0xffffffffffffffff d).map fun n => .ofNat n.toNat
  encode n := .int n.toNat

/-- Counts: unsigned integers of 64 bits under the name of sizes. -/
def count : Codec UInt64 where
  decode _ d := (decodeInteger "usize" 0 0xffffffffffffffff d).map fun n => .ofNat n.toNat
  encode n := .int n.toNat

/-- Signed integers of 32 bits. -/
def int32 : Codec Int32 where
  decode _ d := (decodeInteger "i32" (-0x80000000) 0x7fffffff d).map .ofInt
  encode n := .int n.toInt

/-- Doubles; an integer is read as the nearest double, and what is not finite has no form. -/
def double : Codec Double where
  decode _ d := match d with
    | .real x => .ok x
    | .int n => .ok (.ofInt n)
    | _ => d.reject .real
  encode x := if x.isFinite then .real x else .null

/-- Instants. -/
def instant : Codec Instant where
  decode _ d := match d with
    | .text s => match Instant.ofString s with
      | .ok t => .ok t
      | .error reason => .error (.badInstant reason)
    | _ => d.reject .instant
  encode t := .text t.text

/-- Decode items from left to right. -/
def decodeItems {α : Type} (decode : Document → Except DecodeError α) :
    List Document → Except DecodeError (List α)
  | [] => .ok []
  | item :: rest => do
    let value ← decode item
    let values ← decodeItems decode rest
    .ok (value :: values)

/-- Lists of any length. -/
def list {α : Type} (c : Codec α) : Codec (List α) where
  decode source d := match d with
    | .list items ending => do
      let values ← decodeItems (c.decode source) items
      liftFault (Document.atEnd ending values)
    | _ => d.reject .sequence
  encode values := .list (values.map c.encode)

/-- Decode the values of entries from left to right. -/
def decodeEntries {α : Type} (decode : Document → Except DecodeError α) :
    List (Document × Document) → Except DecodeError (List (String × α))
  | [] => .ok []
  | (key, item) :: rest => do
    let name ← liftFault key.keyText
    let value ← decode item
    let values ← decodeEntries decode rest
    .ok ((name, value) :: values)

/-- Maps with text keys; of the entries with one key the last wins. -/
def map {α : Type} (c : Codec α) : Codec (TextMap α) where
  decode source d := match d with
    | .object entries ending => do
      let values ← decodeEntries (c.decode source) entries
      liftFault (Document.atEnd ending (.ofList values))
    | _ => d.reject .map
  encode m := .object (m.entries.map fun entry => (entry.1, c.encode entry.2))

/-- Values of any form. -/
def json : Codec Json where
  decode _ d := liftFault d.toJson
  encode := id

end Codec

end DeviceSuite
