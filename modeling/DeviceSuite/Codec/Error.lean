import DeviceSuite.Double.Shortest
import DeviceSuite.Instant.Reader
import DeviceSuite.Json.Document
import DeviceSuite.Text.Quoted

/-!
# Decoding errors

Why a document is no value of a type, and how that is worded.
-/

namespace DeviceSuite

/-- What stood in the document. -/
inductive Found where
  | null
  | bool (value : Bool)
  | int (value : Int)
  | real (value : Double)
  | text (value : String)
  | sequence
  | map

/-- The name of a record as messages give it: a type, or a variant of a type. -/
inductive RecordName where
  | type (name : String)
  | variant (owner name : String)

/-- What should have stood there. -/
inductive Expected where
  | text
  | boolean
  /-- An integer, named for its width and sign. -/
  | integer (name : String)
  | real
  | sequence
  | map
  | unit
  | instant
  | record (name : RecordName)
  /-- A list of all fields of a record. -/
  | fields (name : RecordName) (count : Nat)
  /-- One of a fixed set of names, in any form. -/
  | choice
  /-- An object with the one key that names a choice. -/
  | singleKey
  /-- The name of a variant. -/
  | variantName
  /-- A value of variants told apart by a tag. -/
  | tagged (name : String)
  /-- A list without more items. -/
  | fewerItems
  /-- A list of exactly so many items. -/
  | items (count : Nat)

/-- A reason why a document does not decode. -/
inductive DecodeError where
  | fault (f : Fault)
  | invalidType (found : Found) (expected : Expected)
  | invalidValue (found : Found) (expected : Expected)
  | invalidLength (length : Nat) (expected : Expected)
  | missingField (name : String)
  | duplicateField (name : String)
  | unknownVariant (name : String) (known : List String)
  | badInstant (reason : Instant.ReadError)

/-- A name between backquotes, as all messages quote names. -/
def quoteName (s : String) : String :=
  let mark := (Char.ofNat 0x60).toString
  mark ++ s ++ mark

/-- The wording of what was found. -/
def Found.message : Found → String
  | null => "null"
  | bool b => "boolean " ++ quoteName (if b then "true" else "false")
  | int n => "integer " ++ quoteName (toString n)
  | real x => "floating point " ++ quoteName x.text
  | text s => "string " ++ Text.quote s
  | sequence => "sequence"
  | map => "map"

/-- The wording of a record's name. -/
def RecordName.message : RecordName → String
  | type name => "struct " ++ name
  | variant owner name => "struct variant " ++ owner ++ "::" ++ name

/-- A number of elements. -/
def elementCount (n : Nat) : String :=
  if n = 1 then "1 element" else toString n ++ " elements"

/-- The wording of what was expected. -/
def Expected.message : Expected → String
  | text => "a string"
  | boolean => "a boolean"
  | integer name => name
  | real => "f64"
  | sequence => "a sequence"
  | map => "a map"
  | unit => "unit"
  | instant => "an RFC 3339 formatted date and time string"
  | record name => name.message
  | fields name count => name.message ++ " with " ++ elementCount count
  | choice => "string or map"
  | singleKey => "map with a single key"
  | variantName => "variant identifier"
  | tagged name => "internally tagged enum " ++ name
  | fewerItems => "fewer elements in array"
  | items count => elementCount count ++ " in sequence"

/-- The wording of a set of names. -/
def oneOf : List String → String
  | [a] => quoteName a
  | [a, b] => quoteName a ++ " or " ++ quoteName b
  | names => "one of " ++ String.intercalate ", " (names.map quoteName)

/-- The wording of a fault. -/
def Fault.message : Fault → String
  | malformed => "the text is malformed"
  | truncated => "the text ends too early"

/-- The wording of an error. -/
def DecodeError.message : DecodeError → String
  | fault f => f.message
  | invalidType found expected =>
    "invalid type: " ++ found.message ++ ", expected " ++ expected.message
  | invalidValue found expected =>
    "invalid value: " ++ found.message ++ ", expected " ++ expected.message
  | invalidLength length expected =>
    "invalid length " ++ toString length ++ ", expected " ++ expected.message
  | missingField name => "missing field " ++ quoteName name
  | duplicateField name => "duplicate field " ++ quoteName name
  | unknownVariant name known =>
    "unknown variant " ++ quoteName name ++ ", expected " ++ oneOf known
  | badInstant reason => reason.message

end DeviceSuite
