import DeviceSuite.Json.Document
import DeviceSuite.Json.Numeral

/-!
# Tokens of a JSON text

A text is cut into tokens by an automaton that reads one character at a time. It stops at the
first character that fits nowhere, and the last token then says what is wrong there.
-/

namespace DeviceSuite

/-- A token. -/
inductive Token where
  | openList
  | closeList
  | openObject
  | closeObject
  | comma
  | colon
  /-- A string, a number or a constant, or the beginning of one that goes wrong. -/
  | scalar (value : Document)
  /-- A character that begins no token. -/
  | stray

namespace Token

/-- A unit of a string: a character, or half of a pair of 16-bit code units. -/
inductive TextUnit where
  | char (c : Char)
  | surrogate (code : Nat)

/-- Join the two halves of each pair. A half without its partner has no character. -/
def joinUnits : List TextUnit → Option (List Char)
  | [] => some []
  | .char c :: rest => (joinUnits rest).map (c :: ·)
  | .surrogate high :: .surrogate low :: rest =>
    if high < 0xDC00 ∧ 0xDC00 ≤ low then
      (joinUnits rest).map (Char.ofNat (0x10000 + (high - 0xD800) * 0x400 + (low - 0xDC00)) :: ·)
    else none
  | .surrogate _ :: _ => none

/-- Whether some half in the units read so far can no longer find its partner. -/
def isUnpaired : List TextUnit → Bool
  | [] => false
  | .char _ :: rest => isUnpaired rest
  | [.surrogate code] => 0xDC00 ≤ code
  | .surrogate high :: .surrogate low :: rest =>
    if high < 0xDC00 ∧ 0xDC00 ≤ low then isUnpaired rest else true
  | .surrogate _ :: .char _ :: _ => true

/-- Where a number literal stands. -/
inductive NumberPart where
  | sign
  | zero
  | whole
  | point
  | fraction
  | mark
  | exponentSign
  | exponent
  deriving DecidableEq

/-- The part that a character continues to, if the literal can go on with it. -/
def NumberPart.next : NumberPart → Char → Option NumberPart
  | sign, c => if c = '0' then some zero else if c.isDigit then some whole else none
  | zero, c => if c = '.' then some point else if c = 'e' ∨ c = 'E' then some mark else none
  | whole, c =>
    if c.isDigit then some whole
    else if c = '.' then some point
    else if c = 'e' ∨ c = 'E' then some mark
    else none
  | point, c => if c.isDigit then some fraction else none
  | fraction, c =>
    if c.isDigit then some fraction else if c = 'e' ∨ c = 'E' then some mark else none
  | mark, c =>
    if c.isDigit then some exponent
    else if c = '+' ∨ c = '-' then some exponentSign
    else none
  | exponentSign, c => if c.isDigit then some exponent else none
  | exponent, c => if c.isDigit then some exponent else none

/-- The parts after which a literal is complete. -/
def NumberPart.isComplete : NumberPart → Bool
  | zero | whole | fraction | exponent => true
  | sign | point | mark | exponentSign => false

/-- The document of a complete literal. A number beyond the range of doubles can only be
skipped. -/
def ofLiteral (literal : List Char) : Document :=
  match (Numeral.ofChars literal).value with
  | some (.int n) => .int n
  | some (.real x) => .real x
  | none => .broken .malformed none

/-- What the automaton is reading. Texts and literals are gathered in reverse. -/
inductive Mode where
  | between
  | word (due : Char) (rest : List Char) (value : Document)
  | number (part : NumberPart) (literal : List Char)
  | string (units : List TextUnit)
  | escape (units : List TextUnit)
  | hex (units : List TextUnit) (digits : List Char)
  | stopped

/-- The state of the automaton: its mode and the tokens so far in reverse. -/
structure Lexer where
  mode : Mode
  tokens : List Token

/-- Emit a token and go on between tokens. -/
def Lexer.emit (l : Lexer) (t : Token) : Lexer := ⟨.between, t :: l.tokens⟩

/-- Emit the token that ends the text. -/
def Lexer.stop (l : Lexer) (t : Token) : Lexer := ⟨.stopped, t :: l.tokens⟩

/-- A string that goes wrong: a half that lost its partner before is the first thing wrong for a
reader that uses the string. -/
def brokenString (units : List TextUnit) (f : Fault) : Token :=
  .scalar (.brokenText (if isUnpaired units.reverse then .malformed else f) (some f))

/-- The token of a string that has ended. -/
def ofUnits (units : List TextUnit) : Token :=
  match joinUnits units.reverse with
  | some cs => .scalar (.text (String.ofList cs))
  | none => .scalar (.brokenText .malformed none)

/-- The character of a one-letter escape. -/
def escaped : Char → Option Char
  | '"' => some '"'
  | '\\' => some '\\'
  | '/' => some '/'
  | 'b' => some '\x08'
  | 'f' => some '\x0c'
  | 'n' => some '\n'
  | 'r' => some '\r'
  | 't' => some '\t'
  | _ => none

/-- The value of a hexadecimal digit. -/
def hexValue (c : Char) : Option Nat :=
  if c.isDigit then some (c.toNat - '0'.toNat)
  else if 'a' ≤ c ∧ c ≤ 'f' then some (c.toNat - 'a'.toNat + 10)
  else if 'A' ≤ c ∧ c ≤ 'F' then some (c.toNat - 'A'.toNat + 10)
  else none

/-- The code unit of four hexadecimal digits. -/
def ofHex (digits : List Char) : Option TextUnit :=
  match digits.mapM hexValue with
  | some [a, b, c, d] =>
    let code := ((a * 16 + b) * 16 + c) * 16 + d
    some (if 0xD800 ≤ code ∧ code < 0xE000 then .surrogate code else .char (Char.ofNat code))
  | _ => none

/-- Begin a token. -/
def Lexer.begin (l : Lexer) (c : Char) : Lexer :=
  match c with
  | ' ' | '\n' | '\t' | '\r' => { l with mode := .between }
  | '[' => l.emit .openList
  | ']' => l.emit .closeList
  | '\x7b' => l.emit .openObject
  | '\x7d' => l.emit .closeObject
  | ',' => l.emit .comma
  | ':' => l.emit .colon
  | '"' => { l with mode := .string [] }
  | '-' => { l with mode := .number .sign ['-'] }
  | '0' => { l with mode := .number .zero ['0'] }
  | 'n' => { l with mode := .word 'u' ['l', 'l'] .null }
  | 't' => { l with mode := .word 'r' ['u', 'e'] (.bool true) }
  | 'f' => { l with mode := .word 'a' ['l', 's', 'e'] (.bool false) }
  | c => if c.isDigit then { l with mode := .number .whole [c] } else l.stop .stray

/-- Read one character. -/
def Lexer.step (l : Lexer) (c : Char) : Lexer :=
  match l.mode with
  | .between => l.begin c
  | .word due rest value =>
    if c ≠ due then l.stop (.scalar (.broken .malformed (some .malformed)))
    else match rest with
      | [] => l.emit (.scalar value)
      | next :: rest => { l with mode := .word next rest value }
  | .number part literal =>
    match part.next c with
    | some next => { l with mode := .number next (c :: literal) }
    | none =>
      if part.isComplete ∧ ¬ (part = .zero ∧ c.isDigit) then
        (l.emit (.scalar (ofLiteral literal.reverse))).begin c
      else l.stop (.scalar (.broken .malformed (some .malformed)))
  | .string units =>
    if c = '"' then l.emit (ofUnits units)
    else if c = '\\' then { l with mode := .escape units }
    else if c.toNat < 0x20 then l.stop (brokenString units .malformed)
    else { l with mode := .string (.char c :: units) }
  | .escape units =>
    if c = 'u' then { l with mode := .hex units [] }
    else match escaped c with
      | some e => { l with mode := .string (.char e :: units) }
      | none => l.stop (brokenString units .malformed)
  | .hex units digits =>
    let digits := digits ++ [c]
    if digits.foldl (fun size c => size + c.utf8Size) 0 < 4 then
      { l with mode := .hex units digits }
    else match ofHex digits with
      | some u => { l with mode := .string (u :: units) }
      | none => l.stop (brokenString units .malformed)
  | .stopped => l

/-- The tokens of a text that has ended. An unfinished number is malformed for a reader that
skips it. -/
def Lexer.finish (l : Lexer) : List Token :=
  match l.mode with
  | .between | .stopped => l.tokens.reverse
  | .word _ _ _ => (l.stop (.scalar (.broken .truncated (some .truncated)))).tokens.reverse
  | .number part literal =>
    let last := if part.isComplete then ofLiteral literal.reverse
      else .broken .truncated (some .malformed)
    (l.stop (.scalar last)).tokens.reverse
  | .string units | .escape units | .hex units _ =>
    (l.stop (brokenString units .truncated)).tokens.reverse

/-- The tokens of a text. -/
def scan (s : String) : List Token := (s.toList.foldl Lexer.step ⟨.between, []⟩).finish

end Token

end DeviceSuite
