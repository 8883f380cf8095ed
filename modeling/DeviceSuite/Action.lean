import DeviceSuite.Codec.Tagged
import DeviceSuite.Graph.Basic
import DeviceSuite.Target

/-!
# Actions

An action node names one of seventeen kinds of action and gives its fields among its parameters.
Ten kinds are commands to the device, one is a pause, and six wait until something is or is no
longer on the screen.
-/

namespace DeviceSuite

/-- A command that a device carries out at once. -/
inductive Command where
  | tap (x y : Int32)
  | tapElement (selector : Selector)
  | doubleTap (x y : Int32)
  | longPress (x y : Int32) (durationMs : UInt64)
  | swipe (startX startY endX endY : Int32) (durationMs : UInt64)
  | inputText (text : String) (selector : Option Selector)
  | pressKey (key : String)
  | launchApp (package : String)
  | terminateApp (package : String)
  | clearAppData (package : String)
  deriving DecidableEq, Repr

/-- An action: a command, a pause, or a wait for the presence or absence of a target. -/
inductive Action where
  | perform (command : Command)
  | pause (durationMs : UInt64)
  | await (target : Target) (present : Bool)
  deriving DecidableEq, Repr

/-- The kinds of action. -/
inductive ActionKind where
  | tap
  | tapElement
  | doubleTap
  | longPress
  | swipe
  | inputText
  | pressKey
  | launchApp
  | terminateApp
  | clearAppData
  | wait
  | waitUntilExists
  | waitUntilGone
  | waitUntilTextExists
  | waitUntilTextGone
  | waitUntilImage
  | waitUntilImageGone
  deriving DecidableEq, Repr

namespace ActionKind

/-- All kinds. -/
def all : List ActionKind :=
  [tap, tapElement, doubleTap, longPress, swipe, inputText, pressKey, launchApp, terminateApp,
    clearAppData, wait, waitUntilExists, waitUntilGone, waitUntilTextExists, waitUntilTextGone,
    waitUntilImage, waitUntilImageGone]

/-- The written name of a kind. -/
def name : ActionKind → String
  | tap => "tap"
  | tapElement => "tapElement"
  | doubleTap => "doubleTap"
  | longPress => "longPress"
  | swipe => "swipe"
  | inputText => "inputText"
  | pressKey => "pressKey"
  | launchApp => "launchApp"
  | terminateApp => "terminateApp"
  | clearAppData => "clearAppData"
  | wait => "wait"
  | waitUntilExists => "waitUntilExists"
  | waitUntilGone => "waitUntilGone"
  | waitUntilTextExists => "waitUntilTextExists"
  | waitUntilTextGone => "waitUntilTextGone"
  | waitUntilImage => "waitUntilImage"
  | waitUntilImageGone => "waitUntilImageGone"

/-- The codec of kinds. -/
def codec : Codec ActionKind := .choice all name

/-- The kind with a name. -/
def ofName? (name : String) : Option ActionKind := all.find? fun kind => kind.name == name

/-- Whether an action of the kind waits for something on the screen. -/
def isWait : ActionKind → Bool
  | waitUntilExists | waitUntilGone | waitUntilTextExists | waitUntilTextGone | waitUntilImage
  | waitUntilImageGone => true
  | _ => false

/-- Whether a step of the named type counts as waiting: a known kind by what it does, any other
by its name. -/
def isWaitName (name : String) : Bool :=
  match ofName? name with
  | some kind => kind.isWait
  | none => name.startsWith "waitUntil"

end ActionKind

namespace Action

/-- The kind of an action. -/
def kind : Action → ActionKind
  | perform (.tap _ _) => .tap
  | perform (.tapElement _) => .tapElement
  | perform (.doubleTap _ _) => .doubleTap
  | perform (.longPress _ _ _) => .longPress
  | perform (.swipe _ _ _ _ _) => .swipe
  | perform (.inputText _ _) => .inputText
  | perform (.pressKey _) => .pressKey
  | perform (.launchApp _) => .launchApp
  | perform (.terminateApp _) => .terminateApp
  | perform (.clearAppData _) => .clearAppData
  | pause _ => .wait
  | await (.element _) true => .waitUntilExists
  | await (.element _) false => .waitUntilGone
  | await (.text _) true => .waitUntilTextExists
  | await (.text _) false => .waitUntilTextGone
  | await (.image _) true => .waitUntilImage
  | await (.image _) false => .waitUntilImageGone

/-- A long press lasts a second unless it says otherwise. -/
def defaultPressMs : UInt64 := 1000

/-- A swipe lasts three tenths of a second unless it says otherwise. -/
def defaultSwipeMs : UInt64 := 300

/-- A variant of actions, told by its kind. -/
def variant (kind : ActionKind) (fields : List Field) (build : Row fields → Action)
    (take : Action → Option (Row fields)) (hasListForm : Bool := true) : Variant Action where
  tag := kind.name
  record := .variant "Action" kind.name.capitalize
  fields := fields
  hasListForm := hasListForm
  build := build
  take := take

/-- The variants of actions. An image is given by the fields of its template, and such a variant
is read from objects only. -/
def variants : List (Variant Action) :=
  [variant .tap [.required "x" .int32, .required "y" .int32]
      (fun (x, y, ()) => perform (.tap x y))
      fun | perform (.tap x y) => some (x, y, ()) | _ => none,
    variant .tapElement [.required "selector" Selector.codec]
      (fun (s, ()) => perform (.tapElement s))
      fun | perform (.tapElement s) => some (s, ()) | _ => none,
    variant .doubleTap [.required "x" .int32, .required "y" .int32]
      (fun (x, y, ()) => perform (.doubleTap x y))
      fun | perform (.doubleTap x y) => some (x, y, ()) | _ => none,
    variant .longPress
      [.required "x" .int32, .required "y" .int32, .defaulted "duration" .uint64 defaultPressMs]
      (fun (x, y, ms, ()) => perform (.longPress x y ms))
      fun | perform (.longPress x y ms) => some (x, y, ms, ()) | _ => none,
    variant .swipe
      [.required "startX" .int32, .required "startY" .int32, .required "endX" .int32,
        .required "endY" .int32, .defaulted "duration" .uint64 defaultSwipeMs]
      (fun (x, y, u, v, ms, ()) => perform (.swipe x y u v ms))
      fun | perform (.swipe x y u v ms) => some (x, y, u, v, ms, ()) | _ => none,
    variant .inputText [.required "text" .string, .optional "selector" Selector.codec]
      (fun (text, s, ()) => perform (.inputText text s))
      fun | perform (.inputText text s) => some (text, s, ()) | _ => none,
    variant .pressKey [.required "key" .string] (fun (key, ()) => perform (.pressKey key))
      fun | perform (.pressKey key) => some (key, ()) | _ => none,
    variant .launchApp [.required "package" .string]
      (fun (package, ()) => perform (.launchApp package))
      fun | perform (.launchApp package) => some (package, ()) | _ => none,
    variant .terminateApp [.required "package" .string]
      (fun (package, ()) => perform (.terminateApp package))
      fun | perform (.terminateApp package) => some (package, ()) | _ => none,
    variant .clearAppData [.required "package" .string]
      (fun (package, ()) => perform (.clearAppData package))
      fun | perform (.clearAppData package) => some (package, ()) | _ => none,
    variant .wait [.required "duration" .uint64] (fun (ms, ()) => pause ms)
      fun | pause ms => some (ms, ()) | _ => none,
    variant .waitUntilExists [.required "selector" Selector.codec]
      (fun (s, ()) => await (.element s) true)
      fun | await (.element s) true => some (s, ()) | _ => none,
    variant .waitUntilGone [.required "selector" Selector.codec]
      (fun (s, ()) => await (.element s) false)
      fun | await (.element s) false => some (s, ()) | _ => none,
    variant .waitUntilTextExists [.required "text" .string]
      (fun (text, ()) => await (.text text) true)
      fun | await (.text text) true => some (text, ()) | _ => none,
    variant .waitUntilTextGone [.required "text" .string]
      (fun (text, ()) => await (.text text) false)
      fun | await (.text text) false => some (text, ()) | _ => none,
    variant .waitUntilImage ImageTemplate.fields
      (fun (template, threshold, ()) => await (.image ⟨template, threshold⟩) true)
      (fun | await (.image i) true => some (i.template, i.threshold, ()) | _ => none) false,
    variant .waitUntilImageGone ImageTemplate.fields
      (fun (template, threshold, ()) => await (.image ⟨template, threshold⟩) false)
      (fun | await (.image i) false => some (i.template, i.threshold, ()) | _ => none) false]

/-- The codec of actions. -/
def codec : Codec Action := .tagged "Action" "actionType" variants

end Action

/-- Why the parameters of a node give no action or condition. -/
inductive ParamsError where
  | unknown (stepType : String)
  | invalid (stepType : String) (reason : DecodeError)

/-- The wording of an error. -/
def ParamsError.message : ParamsError → String
  | unknown stepType => "Unknown action type: " ++ stepType
  | invalid stepType reason =>
    "Invalid parameters for " ++ stepType ++ ": " ++ reason.message

/-- The name of a command. -/
def Command.name (c : Command) : String := (Action.perform c).kind.name

namespace Node

/-- The action of a node that names one. -/
def namedAction (n : Node) (name : String) : Except ParamsError Action :=
  match ActionKind.ofName? name with
  | none => .error (.unknown name)
  | some _ => (Action.codec.ofJson (.ofMap n.params)).mapError (.invalid name)

/-- The action of an action node. -/
def action (n : Node) : Except ParamsError Action :=
  match n.kind, n.actionType with
  | .action, some name => n.namedAction name
  | _, _ => .error (.unknown n.stepType)

end Node

end DeviceSuite
