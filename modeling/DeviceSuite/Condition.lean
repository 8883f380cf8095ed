import DeviceSuite.Action

/-!
# Conditions

A condition node asks whether a target is on the screen, or whether it is not.
-/

namespace DeviceSuite

/-- A question about the screen. -/
structure Condition where
  target : Target
  present : Bool
  deriving DecidableEq, Repr

namespace Condition

/-- A variant of conditions with its capitalised name. -/
def variant (tag : String) (fields : List Field) (build : Row fields → Condition)
    (take : Condition → Option (Row fields)) (hasListForm : Bool := true) :
    Variant Condition where
  tag := tag
  record := .variant "Condition" tag.capitalize
  fields := fields
  hasListForm := hasListForm
  build := build
  take := take

/-- The variants of conditions. -/
def variants : List (Variant Condition) :=
  [variant "elementExists" [.required "selector" Selector.codec]
      (fun (s, ()) => ⟨.element s, true⟩)
      fun | ⟨.element s, true⟩ => some (s, ()) | _ => none,
    variant "elementNotExists" [.required "selector" Selector.codec]
      (fun (s, ()) => ⟨.element s, false⟩)
      fun | ⟨.element s, false⟩ => some (s, ()) | _ => none,
    variant "textExists" [.required "text" .string] (fun (text, ()) => ⟨.text text, true⟩)
      fun | ⟨.text text, true⟩ => some (text, ()) | _ => none,
    variant "textNotExists" [.required "text" .string] (fun (text, ()) => ⟨.text text, false⟩)
      fun | ⟨.text text, false⟩ => some (text, ()) | _ => none,
    variant "imageExists" ImageTemplate.fields
      (fun (template, threshold, ()) => ⟨.image ⟨template, threshold⟩, true⟩)
      (fun | ⟨.image i, true⟩ => some (i.template, i.threshold, ()) | _ => none) false,
    variant "imageNotExists" ImageTemplate.fields
      (fun (template, threshold, ()) => ⟨.image ⟨template, threshold⟩, false⟩)
      (fun | ⟨.image i, false⟩ => some (i.template, i.threshold, ()) | _ => none) false]

/-- The codec of conditions. -/
def codec : Codec Condition := .tagged "Condition" "conditionType" variants

end Condition

/-- The condition among the parameters of a node. -/
def Node.condition (n : Node) : Except ParamsError Condition :=
  (Condition.codec.ofJson (.ofMap n.params)).mapError (.invalid "condition")

end DeviceSuite
