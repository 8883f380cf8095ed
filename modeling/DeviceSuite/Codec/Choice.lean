import DeviceSuite.Codec.Basic

/-!
# Choices

A choice is one of a fixed set of named values. Its form is the name; an object with the name as
its one key and null under it is read too.
-/

namespace DeviceSuite

/-- The value of a name among the choices. -/
def decodeName {α : Type} (choices : List (String × α)) (name : String) :
    Except DecodeError α :=
  match choices.lookup name with
  | some value => .ok value
  | none => .error (.unknownVariant name (choices.map (·.1)))

/-- The value that a document names among the choices. -/
def decodeNamed {α : Type} (choices : List (String × α)) (d : Document) : Except DecodeError α :=
  match d with
  | .text name => decodeName choices name
  | _ => d.reject .variantName

/-- Nothing stands under the name of a choice; buffered content may hold an empty object. -/
def decodeUnit (source : Source) (d : Document) : Except DecodeError Unit :=
  match source, d with
  | _, .null => .ok ()
  | .buffer, .object [] none => .ok ()
  | _, d => d.reject .unit

/-- Read a choice from the only entry of an object in a text. What stands in the place of the key
is read as a name, be it a string or not. -/
def decodeTextEntry {α : Type} (choices : List (String × α))
    (entries : List (Document × Document)) (ending : Option Fault) : Except DecodeError α :=
  match entries with
  | [] => .error (.fault .malformed)
  | (key, d) :: rest => do
    let value ← decodeNamed choices key
    decodeUnit .text d
    if rest.isEmpty then liftFault (Document.atEnd ending value) else .error (.fault .malformed)

/-- Read a choice from an object that should have one entry. -/
def decodeSingleEntry {α : Type} (choices : List (String × α)) (source : Source)
    (entries : List (Document × Document)) : Except DecodeError α :=
  match entries with
  | [(key, d)] => do
    let value ← decodeNamed choices key
    decodeUnit source d
    .ok value
  | _ => .error (.invalidValue .map .singleKey)

/-- Read a choice. In a text any other form is malformed from its first character on. -/
def decodeChoice {α : Type} (choices : List (String × α)) : Decoder α := fun source d =>
  match source, d with
  | _, .text name => decodeName choices name
  | .text, .object entries ending => decodeTextEntry choices entries ending
  | .text, .missing f => .error (.fault f)
  | .text, .brokenText reading _ => .error (.fault reading)
  | .text, _ => .error (.fault .malformed)
  | _, .object entries _ => decodeSingleEntry choices source entries
  | _, d => d.reject .choice

/-- The codec of the values of a list, each written by its name. -/
def Codec.choice {α : Type} (values : List α) (name : α → String) : Codec α where
  decode := decodeChoice (values.map fun value => (name value, value))
  encode value := .text (name value)

end DeviceSuite
