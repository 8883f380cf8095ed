import DeviceSuite.Json.Basic

/-!
# Documents as a reader meets them

A document keeps what a JSON value forgets: repeated keys, and the place where the text stopped
being JSON. A reader that walks a document from left to right thus meets its faults in the order
of the text, and a fault behind the place where the reader gives up is never reported.
-/

namespace DeviceSuite

/-- Why a text is no JSON: it has a character that cannot stand there, or it ends too early. -/
inductive Fault where
  | malformed
  | truncated
  deriving DecidableEq, Repr

/-- A JSON value with its faults.

A list or an object ends with a fault if something else stands in the place of its bracket. A
broken value has two faults, one for a reader that uses the value and one for a reader that skips
it: a number beyond the range of doubles is well formed and can be skipped, and so can a string
that holds half of a pair of code units. A key is a document too, because the text may have
anything in its place. -/
inductive Document where
  | null
  | bool (value : Bool)
  | int (value : Int)
  | real (value : Double)
  | text (value : String)
  | list (items : List Document) (ending : Option Fault)
  | object (entries : List (Document × Document)) (ending : Option Fault)
  /-- No value begins where one is due. -/
  | missing (fault : Fault)
  /-- A string without a value, or one that does not end. -/
  | brokenText (reading : Fault) (skipping : Option Fault)
  /-- A number or a constant that goes wrong, or a value that nests too deep. -/
  | broken (reading : Fault) (skipping : Option Fault)
  deriving Inhabited

namespace Document

mutual

/-- The document of a value in memory has no faults. -/
def ofJson : Json → Document
  | .null => null
  | .bool b => bool b
  | .int n => int n
  | .real x => real x
  | .text s => text s
  | .list items => list (ofItems items) none
  | .object entries => object (ofEntries entries) none

/-- The documents of the items of a list. -/
def ofItems : List Json → List Document
  | [] => []
  | item :: rest => ofJson item :: ofItems rest

/-- The documents of the entries of an object. -/
def ofEntries : List (String × Json) → List (Document × Document)
  | [] => []
  | (key, value) :: rest => (text key, ofJson value) :: ofEntries rest

end

/-- Whether the document is a string, be it broken. -/
def isString : Document → Bool
  | text _ | brokenText _ _ => true
  | _ => false

/-- The text of a key, which only a string can be. -/
def keyText : Document → Except Fault String
  | text s => .ok s
  | missing f => .error f
  | brokenText reading _ => .error reading
  | _ => .error .malformed

/-- The fault of a key that is skipped. -/
def keySkipFault : Document → Option Fault
  | text _ => none
  | missing f => some f
  | brokenText _ skipping => skipping
  | _ => some .malformed

mutual

/-- The first fault that a reader meets who skips the document. -/
def skipFault : Document → Option Fault
  | list items ending => (skipItems items).or ending
  | object entries ending => (skipEntries entries).or ending
  | missing f => some f
  | brokenText _ skipping => skipping
  | broken _ skipping => skipping
  | _ => none

/-- The first fault of skipped items. -/
def skipItems : List Document → Option Fault
  | [] => none
  | item :: rest => (skipFault item).or (skipItems rest)

/-- The first fault of skipped entries. -/
def skipEntries : List (Document × Document) → Option Fault
  | [] => none
  | (key, value) :: rest => key.keySkipFault.or ((skipFault value).or (skipEntries rest))

end

/-- A value, unless its list or object ended with a fault. -/
def atEnd {α : Type} (ending : Option Fault) (value : α) : Except Fault α :=
  match ending with
  | some f => .error f
  | none => .ok value

mutual

/-- The value of a document. Of the entries with one key the last wins, and the keys of an object
are put in order. -/
def toJson : Document → Except Fault Json
  | null => .ok .null
  | bool b => .ok (.bool b)
  | int n => .ok (.int n)
  | real x => .ok (.real x)
  | text s => .ok (.text s)
  | list items ending => do
    let values ← toItems items
    atEnd ending (.list values)
  | object entries ending => do
    let values ← toEntries entries
    atEnd ending (.ofMap (.ofList values))
  | missing f => .error f
  | brokenText reading _ => .error reading
  | broken reading _ => .error reading

/-- The values of items, from left to right. -/
def toItems : List Document → Except Fault (List Json)
  | [] => .ok []
  | item :: rest => do
    let value ← toJson item
    let values ← toItems rest
    .ok (value :: values)

/-- The values of entries, from left to right. -/
def toEntries : List (Document × Document) → Except Fault (List (String × Json))
  | [] => .ok []
  | (key, item) :: rest => do
    let name ← key.keyText
    let value ← toJson item
    let values ← toEntries rest
    .ok ((name, value) :: values)

end

end Document

end DeviceSuite
