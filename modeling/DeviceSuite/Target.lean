import DeviceSuite.Codec.Record
import DeviceSuite.Codec.Choice

/-!
# Targets on a screen

What a step looks for: an element, a text or an image.
-/

namespace DeviceSuite

/-- How an element is located. -/
inductive SelectorStrategy where
  | id
  | text
  | accessibilityId
  | xpath
  | className
  deriving DecidableEq, Repr

namespace SelectorStrategy

/-- The written name of a strategy. -/
def name : SelectorStrategy → String
  | id => "id"
  | text => "text"
  | accessibilityId => "accessibilityId"
  | xpath => "xpath"
  | className => "className"

/-- All strategies. -/
def all : List SelectorStrategy := [id, text, accessibilityId, xpath, className]

/-- The codec of strategies. -/
def codec : Codec SelectorStrategy := .choice all name

end SelectorStrategy

/-- A locator of elements. -/
structure Selector where
  strategy : SelectorStrategy
  value : String
  deriving DecidableEq, Repr

namespace Selector

/-- The fields of a selector. -/
abbrev fields : List Field :=
  [.defaulted "strategy" SelectorStrategy.codec .id, .required "value" .string]

/-- The codec of selectors. -/
def codec : Codec Selector :=
  .record "Selector" fields (fun (strategy, value, ()) => ⟨strategy, value⟩)
    (fun s => (s.strategy, s.value, ()))

/-- A selector in messages: the capitalised strategy and the value. -/
def describe (s : Selector) : String := s.strategy.name.capitalize ++ "=" ++ s.value

end Selector

/-- An image to be found, with the least confidence of a match. -/
structure ImageTemplate where
  template : String
  threshold : Option Double
  deriving DecidableEq, Repr

namespace ImageTemplate

/-- The fields of an image template. -/
abbrev fields : List Field := [.required "template" .string, .optional "threshold" .double]

/-- The codec of image templates. -/
def codec : Codec ImageTemplate :=
  .record "ImageTemplate" fields (fun (template, threshold, ()) => ⟨template, threshold⟩)
    (fun i => (i.template, i.threshold, ()))

end ImageTemplate

/-- What a step looks for on the screen. -/
inductive Target where
  | element (selector : Selector)
  | text (text : String)
  | image (image : ImageTemplate)
  deriving DecidableEq, Repr

/-- The word by which a target is looked for: the value of the selector, the text itself, or the
name of the image. -/
def Target.key : Target → String
  | element selector => selector.value
  | text words => words
  | image picture => picture.template

end DeviceSuite
