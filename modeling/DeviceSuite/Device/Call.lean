import DeviceSuite.Action
import DeviceSuite.DeviceError
import DeviceSuite.Result
import DeviceSuite.Task.Basic

/-!
# Calls to a device

A device is asked about itself, carries out commands, looks for targets on its screen, and takes
pictures of it. Each call succeeds or fails with a device error.
-/

namespace DeviceSuite

/-- What a look at the screen finds: nothing, or the target, and for an image where it is. -/
inductive Finding where
  | absent
  | present (place : Option ImageMatch)
  deriving DecidableEq, Repr

namespace Finding

/-- Whether the target is there. -/
def isPresent : Finding → Bool
  | absent => false
  | present _ => true

/-- Where an image is. -/
def place? : Finding → Option ImageMatch
  | absent => none
  | present place => place

end Finding

/-- A call to a device. -/
inductive DeviceCall where
  | environment
  | appInfo
  | perform (command : Command)
  | locate (target : Target)
  | screenshot
  deriving DecidableEq, Repr

/-- The reply to a call. -/
abbrev DeviceCall.Reply : DeviceCall → Type
  | environment => Except DeviceError Environment
  | appInfo => Except DeviceError (Option AppInfo)
  | perform _ => Except DeviceError Outcome
  | locate _ => Except DeviceError Finding
  | screenshot => Except DeviceError (List UInt8)

namespace Command

/-- The arguments of a command, written down; a selector is written as in messages. -/
def arguments : Command → List Json
  | tap x y | doubleTap x y => [.int x.toInt, .int y.toInt]
  | tapElement selector => [.text selector.describe]
  | longPress x y ms => [.int x.toInt, .int y.toInt, .int ms.toNat]
  | swipe startX startY endX endY ms =>
    [.int startX.toInt, .int startY.toInt, .int endX.toInt, .int endY.toInt, .int ms.toNat]
  | inputText text selector => [.text text, (selector.map fun s => .text s.describe).getD .null]
  | pressKey key => [.text key]
  | launchApp package | terminateApp package | clearAppData package => [.text package]

end Command

namespace DeviceCall

/-- The name of a call. -/
def name : DeviceCall → String
  | environment => "environment"
  | appInfo => "appInfo"
  | perform command => command.name
  | locate (.element _) => "elementExists"
  | locate (.text _) => "textExists"
  | locate (.image _) => "findImage"
  | screenshot => "screenshot"

/-- The arguments of a call, written down. -/
def arguments : DeviceCall → List Json
  | perform command => command.arguments
  | locate (.element selector) => [.text selector.describe]
  | locate (.text words) => [.text words]
  | locate (.image image) => [.text image.template, (image.threshold.map .real).getD .null]
  | environment | appInfo | screenshot => []

end DeviceCall

/-- A task that makes calls to one device. -/
abbrev DeviceTask := Task DeviceCall.Reply

end DeviceSuite
