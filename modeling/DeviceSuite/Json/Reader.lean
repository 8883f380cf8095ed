import DeviceSuite.Json.Token

/-!
# Reading a JSON text

The tokens of a text build its document, one token at a time, on a stack of the lists and objects
that are still open. What does not fit ends the document there: everything open is closed with
the fault, and the tokens behind it are not looked at.
-/

namespace DeviceSuite

/-- A document and whether anything but blanks follows it. -/
structure Reading where
  root : Document
  trailing : Bool

namespace Reading

/-- A list or an object that is still open, with its parts in reverse. -/
inductive Frame where
  | list (items : List Document)
  | object (entries : List (Document × Document)) (key : Document)

/-- What may come next. -/
inductive Due where
  | value
  | valueOrEnd
  | commaOrEnd
  | key
  | keyOrEnd
  | colon
  | nothing

/-- A document under construction; the root is there once the outermost value is complete. -/
structure Builder where
  frames : List Frame
  due : Due
  root : Option Document
  trailing : Bool

/-- Lists and objects nest at most this deep for a reader that uses them. -/
def greatestDepth : Nat := 127

/-- A list or an object at a depth; below the greatest depth it can only be skipped. -/
def atDepth (depth : Nat) (d : Document) : Document :=
  if depth ≤ greatestDepth then d else .broken .malformed d.skipFault

/-- Close a frame that holds `depth - 1` others. -/
def Frame.close (depth : Nat) (ending : Option Fault) : Frame → Document
  | list items => atDepth depth (.list items.reverse ending)
  | object entries _ => atDepth depth (.object entries.reverse ending)

/-- Put a complete value into a frame. -/
def Frame.push (value : Document) : Frame → Frame
  | list items => list (value :: items)
  | object entries key => object ((key, value) :: entries) key

/-- Set the key of the next value of a frame. A list has no keys. -/
def Frame.setKey (key : Document) : Frame → Frame
  | list items => list items
  | object entries _ => object entries key

/-- A value is complete. -/
def Builder.complete (b : Builder) (value : Document) : Builder :=
  match b.frames with
  | [] => { b with due := .nothing, root := some value }
  | frame :: rest => { b with due := .commaOrEnd, frames := frame.push value :: rest }

/-- Close the innermost frame with its bracket. -/
def Builder.closeFrame (b : Builder) : Builder :=
  match b.frames with
  | [] => b
  | frame :: rest =>
    { b with frames := rest }.complete (frame.close b.frames.length none)

/-- Close all frames with the fault. -/
def closeAll (f : Fault) : List Frame → Option Document
  | [] => none
  | [frame] => some (frame.close 1 (some f))
  | frame :: outer :: rest =>
    closeAll f (outer.push (frame.close (rest.length + 2) (some f)) :: rest)
termination_by frames => frames.length

/-- The text goes wrong where a comma or a bracket is due. -/
def Builder.breakOff (b : Builder) (f : Fault) : Builder :=
  { b with frames := [], due := .nothing, root := closeAll f b.frames }

/-- The text goes wrong where a value is due. -/
def Builder.breakValue (b : Builder) (f : Fault) : Builder :=
  let b := b.complete (.missing f)
  if b.frames.isEmpty then b else b.breakOff f

/-- A value begins. -/
def Builder.beginValue (b : Builder) : Token → Builder
  | .openList => { b with frames := .list [] :: b.frames, due := .valueOrEnd }
  | .openObject => { b with frames := .object [] .null :: b.frames, due := .keyOrEnd }
  | .scalar value => b.complete value
  | _ => b.breakValue .malformed

/-- A key is complete, or something else stands in its place. -/
def Builder.setKey (b : Builder) (key : Document) : Builder :=
  { b with frames := b.frames.modifyHead (Frame.setKey key), due := .colon }

/-- A key begins, or something else stands in its place. -/
def Builder.beginKey (b : Builder) : Token → Builder
  | .openList => (b.setKey (.list [] (some .malformed))).breakValue .malformed
  | .openObject => (b.setKey (.object [] (some .malformed))).breakValue .malformed
  | .scalar key => if key.isString then b.setKey key else (b.setKey key).breakValue .malformed
  | _ => (b.setKey (.missing .malformed)).breakValue .malformed

/-- Read one token. -/
def Builder.step (b : Builder) (t : Token) : Builder :=
  match b.due with
  | .value => b.beginValue t
  | .valueOrEnd =>
    match t with
    | .closeList => b.closeFrame
    | _ => b.beginValue t
  | .commaOrEnd =>
    match t, b.frames with
    | .comma, .list _ :: _ => { b with due := .value }
    | .comma, .object _ _ :: _ => { b with due := .key }
    | .closeList, .list _ :: _ => b.closeFrame
    | .closeObject, .object _ _ :: _ => b.closeFrame
    | _, _ => b.breakOff .malformed
  | .key => b.beginKey t
  | .keyOrEnd =>
    match t with
    | .closeObject => b.closeFrame
    | _ => b.beginKey t
  | .colon =>
    match t with
    | .colon => { b with due := .value }
    | _ => b.breakValue .malformed
  | .nothing => { b with trailing := true }

/-- The text ends. -/
def Builder.finish (b : Builder) : Builder :=
  match b.due with
  | .value | .colon => b.breakValue .truncated
  | .valueOrEnd | .commaOrEnd => b.breakOff .truncated
  | .key | .keyOrEnd => (b.setKey (.missing .truncated)).breakValue .truncated
  | .nothing => b

/-- The builder before the first token. -/
def Builder.start : Builder := ⟨[], .value, none, false⟩

/-- Read a text. -/
def ofString (s : String) : Reading :=
  let b := ((Token.scan s).foldl Builder.step Builder.start).finish
  ⟨b.root.getD (.missing .truncated), b.trailing⟩

end Reading

/-- The value of a JSON text. -/
def Json.read (s : String) : Except Fault Json :=
  let reading := Reading.ofString s
  reading.root.toJson.bind fun value =>
    if reading.trailing then .error .malformed else .ok value

end DeviceSuite
