/-!
# Device errors

What a device reports when a call fails, sorted by what to do about it. A message is fatal when
it says that the session is gone, transient when it says that another attempt may succeed, and
fatal phrases win. Letters count alike in both cases as far as they are ASCII.
-/

namespace DeviceSuite

/-- A failed call to a device. -/
inductive DeviceError where
  | transient (message : String)
  | fatal (message : String)
  | other (message : String)
  /-- The run was stopped while the call was pending. -/
  | stopped
  deriving DecidableEq, Repr

namespace DeviceError

/-- Phrases that mark a session as gone. -/
def fatalPhrases : List String :=
  ["invalid session id", "session not created", "session is either terminated or not started",
    "session terminated", "session has been terminated",
    "instrumentation process is not running", "device not found", "device offline"]

/-- Phrases that mark a condition that may pass. -/
def transientPhrases : List String :=
  ["no such element", "element not found", "stale element reference", "timeout", "timed out",
    "connection refused", "econnrefused", "econnreset", "socket hang up",
    "could not proxy command"]

/-- Whether a text has a phrase among its parts. -/
def hasPhrase (phrase : List Char) : List Char → Bool
  | [] => phrase.isEmpty
  | c :: rest => phrase.isPrefixOf (c :: rest) || hasPhrase phrase rest

/-- Whether a message has one of the phrases, in letters of any case. -/
def mentions (phrases : List String) (message : String) : Bool :=
  let letters := message.toList.map Char.toLower
  phrases.any fun phrase => hasPhrase phrase.toList letters

/-- Whether a message says that the session is gone. -/
def isFatalMessage (message : String) : Bool := mentions fatalPhrases message

/-- Whether a message speaks of a condition that may pass. -/
def isTransientMessage (message : String) : Bool :=
  !isFatalMessage message && mentions transientPhrases message

/-- Sort a message by its phrases. -/
def classify (message : String) : DeviceError :=
  if isFatalMessage message then fatal message
  else if isTransientMessage message then transient message
  else other message

/-- Whether another attempt may succeed. -/
def isRetryable : DeviceError → Bool
  | transient _ => true
  | other message => isTransientMessage message
  | fatal _ | stopped => false

/-- Whether the session is gone. -/
def isFatal : DeviceError → Bool
  | fatal _ => true
  | other message => isFatalMessage message
  | transient _ | stopped => false

/-- The reason of a run that was stopped. -/
def stoppedText : String := "execution stopped"

/-- The text of an error. -/
def text : DeviceError → String
  | transient message => message
  | fatal message => "session terminated: " ++ message
  | other message => message
  | stopped => stoppedText

end DeviceError

end DeviceSuite
