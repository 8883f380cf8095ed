import DeviceSuite.Double.Basic
import DeviceSuite.TextMap

/-!
# JSON values

A value in memory. A number is an integer when its literal has neither a fraction nor an exponent
and fits 64 bits, signed or unsigned, and a double otherwise.
-/

namespace DeviceSuite

/-- A JSON value; the entries of an object are in the order in which it lists them. -/
inductive Json where
  | null
  | bool (value : Bool)
  | int (value : Int)
  | real (value : Double)
  | text (value : String)
  | list (items : List Json)
  | object (entries : List (String × Json))
  deriving Inhabited

namespace Json

/-- The value under a key of an object. -/
def get? (key : String) : Json → Option Json
  | object entries => entries.lookup key
  | _ => none

/-- The characters of a text value. -/
def text? : Json → Option String
  | text s => some s
  | _ => none

/-- The object with the entries of a map. -/
def ofMap (m : TextMap Json) : Json := object m.entries

end Json

end DeviceSuite
