import DeviceSuite.Graph.Build
import DeviceSuite.Proofs.Codec.Input
import DeviceSuite.Proofs.Codec.Maps

/-!
# The parameters of an action

What an action demands of its parameters is written down here once more, by the forms of the values
that may stand under its keys, and not by their readers. An action node names a kind of action or it
does not; if it does, its action is read if all that the kind demands is met, and then it is of that
kind.
-/

namespace DeviceSuite

namespace Json

/-- An integer between bounds. -/
def IsIntegerIn (least greatest : Int) : Json → Prop
  | .int n => least ≤ n ∧ n ≤ greatest
  | _ => False

/-- A signed integer of 32 bits. -/
def IsCoordinate : Json → Prop := IsIntegerIn (-2 ^ 31) (2 ^ 31 - 1)

/-- An unsigned integer of 64 bits. -/
def IsDuration : Json → Prop := IsIntegerIn 0 (2 ^ 64 - 1)

def IsText : Json → Prop
  | .text _ => True
  | _ => False

def IsNumber : Json → Prop
  | .int _ | .real _ => True
  | _ => False

/-- The values under a key, which are one at most in a map. -/
def under (key : String) (entries : List (String × Json)) : List Json :=
  (entries.filter fun e => e.1 == key).map (·.2)

end Json

/-- What a record demands under one of its keys: values of some form, perhaps none at all. -/
structure Demand where
  key : String
  Admits : Json → Prop
  mayMiss : Bool

namespace Demand

/-- A key that must be there. -/
abbrev must (key : String) (Admits : Json → Prop) : Demand := ⟨key, Admits, false⟩

/-- A key that may be missing. -/
abbrev may (key : String) (Admits : Json → Prop) : Demand := ⟨key, Admits, true⟩

/-- A key that may be missing or null. -/
abbrev mayBeNull (key : String) (Admits : Json → Prop) : Demand :=
  ⟨key, fun j => j = .null ∨ Admits j, true⟩

/-- The key stands among the entries once, with what it demands, or it is missing and may be. -/
def Met (d : Demand) (entries : List (String × Json)) : Prop :=
  match Json.under d.key entries with
  | [] => d.mayMiss = true
  | [j] => d.Admits j
  | _ => False

/-- The key must be there and is not. -/
def Missing (d : Demand) (m : TextMap Json) : Prop := m.get? d.key = none ∧ d.mayMiss = false

/-- Something else stands under the key than what it demands. -/
def IllTyped (d : Demand) (m : TextMap Json) : Prop :=
  ∃ j, m.get? d.key = some j ∧ ¬ d.Admits j

/-- A demand is met when its key is neither missing nor of the wrong type. -/
theorem met_map_iff {d : Demand} {m : TextMap Json} :
    d.Met m.entries ↔ ¬ d.Missing m ∧ ¬ d.IllTyped m := by
  rw [Met, Json.under, m.filter_key, Missing, IllTyped]
  cases m.get? d.key <;> simp

end Demand

namespace Json

/-- The name of a strategy, or an object with the name alone, and nothing under it. -/
def IsStrategy : Json → Prop
  | .text s => ∃ strategy : SelectorStrategy, strategy.name = s
  | .object [(s, j)] =>
    (∃ strategy : SelectorStrategy, strategy.name = s) ∧ (j = .null ∨ j = .object [])
  | _ => False

/-- An object with the value of a selector and perhaps its strategy, or a list of both. -/
def IsSelector : Json → Prop
  | .object entries =>
    ∀ d ∈ [Demand.may "strategy" IsStrategy, .must "value" IsText], d.Met entries
  | .list [strategy, value] => strategy.IsStrategy ∧ value.IsText
  | _ => False

end Json

open Demand Json in
/-- What the kinds of action demand of their parameters. -/
def ActionKind.demands : ActionKind → List Demand
  | tap | doubleTap => [must "x" IsCoordinate, must "y" IsCoordinate]
  | tapElement | waitUntilExists | waitUntilGone => [must "selector" IsSelector]
  | longPress =>
    [must "x" IsCoordinate, must "y" IsCoordinate, may "duration" IsDuration]
  | swipe =>
    [must "startX" IsCoordinate, must "startY" IsCoordinate, must "endX" IsCoordinate,
      must "endY" IsCoordinate, may "duration" IsDuration]
  | inputText => [must "text" IsText, mayBeNull "selector" IsSelector]
  | pressKey => [must "key" IsText]
  | launchApp | terminateApp | clearAppData => [must "package" IsText]
  | wait => [must "duration" IsDuration]
  | waitUntilTextExists | waitUntilTextGone => [must "text" IsText]
  | waitUntilImage | waitUntilImageGone =>
    [must "template" IsText, mayBeNull "threshold" IsNumber]

/-- A codec reads the values of one form from buffered content, and no others. -/
def Codec.Reads {α : Type} (c : Codec α) (Admits : Json → Prop) : Prop :=
  ∀ j, (∃ v, c.decode .buffer (.ofJson j) = .ok v) ↔ Admits j

/-- A field is read exactly where a demand is met. -/
structure Field.Obeys (f : Field) (d : Demand) : Prop where
  key : f.name = d.key
  unaliased : f.aliases = []
  missing : f.absent.isSome = d.mayMiss
  typed : ∀ j, (∃ v, f.decode .buffer (.ofJson j) = .ok v) ↔ d.Admits j

section

variable {α : Type} {c : Codec α} {Admits : Json → Prop} {key : String}

/-- A required field obeys a demand that must be there. -/
theorem Codec.Reads.required (h : c.Reads Admits) :
    (Field.required key c).Obeys (.must key Admits) := ⟨rfl, rfl, rfl, h⟩

/-- A field with a default obeys a demand that may be missing. -/
theorem Codec.Reads.defaulted (h : c.Reads Admits) (default : α) :
    (Field.defaulted key c default).Obeys (.may key Admits) := ⟨rfl, rfl, rfl, h⟩

/-- An optional field obeys a demand that may be missing or null. -/
theorem Codec.Reads.optional (h : c.Reads Admits) :
    (Field.optional key c).Obeys (.mayBeNull key Admits) where
  key := rfl
  unaliased := rfl
  missing := rfl
  typed j := by
    have hother : Document.ofJson j ≠ .null →
        ((∃ v, (Field.optional key c).decode .buffer (.ofJson j) = .ok v) ↔
          ∃ v, c.decode .buffer (.ofJson j) = .ok v) := fun hne => by
      simp only [Field.optional]
      constructor
      · rintro ⟨v, hv⟩
        obtain ⟨a, ha, -⟩ := map_eq_ok.1 hv
        exact ⟨a, ha⟩
      · rintro ⟨a, ha⟩
        exact ⟨some a, map_eq_ok.2 ⟨a, ha, rfl⟩⟩
    cases j with
    | null => simp [Document.ofJson]
    | _ =>
      rw [hother (by simp [Document.ofJson]), h]
      simp

end

/-- A field is read from entries exactly where the demand is met that it obeys. -/
theorem Field.Obeys.isSome_read?_iff {f : Field} {d : Demand} (h : f.Obeys d)
    {entries : List (String × Json)} :
    (f.read? .buffer entries).isSome = true ↔ d.Met entries := by
  simp only [Field.read?, Field.answersTo_of_unaliased h.unaliased, h.key, Demand.Met, Json.under]
  generalize (entries.filter fun e => e.1 == d.key) = named
  rcases named with - | ⟨e, - | ⟨e', rest⟩⟩
  · simp [h.missing]
  · refine Iff.trans ?_ (h.typed e.2)
    change (f.decode .buffer (.ofJson e.2)).toOption.isSome = true ↔ _
    cases f.decode .buffer (.ofJson e.2) <;> simp [Except.toOption]
  · simp

/-- A row is read from entries exactly where all demands are met that its fields obey. -/
theorem Row.isSome_read?_iff_met {fs : List Field} {ds : List Demand}
    (h : List.Forall₂ Field.Obeys fs ds) {entries : List (String × Json)} :
    (Row.read? .buffer entries fs).isSome = true ↔ ∀ d ∈ ds, d.Met entries := by
  rw [isSome_read?_iff]
  induction h with
  | nil => simp
  | cons hfirst _ ih => rw [List.forall_mem_cons, List.forall_mem_cons, ih, hfirst.isSome_read?_iff]

namespace Codec

/-- A codec that decodes by range reads the integers in the range, and nothing else. -/
theorem reads_integer {α : Type} {c : Codec α} {name : String} {least greatest : Int}
    {ofInt : Int → α}
    (hc : ∀ source d, c.decode source d = (decodeInteger name least greatest d).map ofInt) :
    c.Reads (Json.IsIntegerIn least greatest) := by
  intro j
  rw [hc]
  cases j with
  | int n =>
    simp only [Document.ofJson, decodeInteger, Json.IsIntegerIn]
    split <;> simp_all [Except.map]
  | _ => simp [Document.ofJson, decodeInteger, Document.reject, Json.IsIntegerIn, Except.map]

/-- A coordinate is an integer of 32 bits. -/
theorem reads_int32 : Codec.int32.Reads Json.IsCoordinate := reads_integer fun _ _ => rfl

/-- A duration is a word of 64 bits. -/
theorem reads_uint64 : Codec.uint64.Reads Json.IsDuration := reads_integer fun _ _ => rfl

/-- A text is read as a string. -/
theorem reads_string : Codec.string.Reads Json.IsText := fun j => by
  cases j <;> simp [Codec.string, Document.ofJson, Document.reject, Json.IsText]

/-- A number is read as a double. -/
theorem reads_double : Codec.double.Reads Json.IsNumber := fun j => by
  cases j <;> simp [Codec.double, Document.ofJson, Document.reject, Json.IsNumber]

/-- A unit is read from null or an empty object. -/
theorem decodeUnit_ofJson_iff {j : Json} :
    decodeUnit .buffer (.ofJson j) = .ok () ↔ j = .null ∨ j = .object [] := by
  cases j with
  | object entries =>
    cases entries <;>
      simp [Document.ofJson, Document.ofEntries, decodeUnit, Document.reject]
  | _ => simp [Document.ofJson, decodeUnit, Document.reject]

/-- A choice is read from a text as the first value with that name. -/
theorem toOption_decodeName {α : Type} (values : List α) (name : α → String) (s : String) :
    (decodeName (values.map fun v => (name v, v)) s).toOption =
      values.find? fun v => name v == s := by
  have hlookup : (values.map fun v => (name v, v)).lookup s =
      values.find? fun v => name v == s := by
    induction values with
    | nil => rfl
    | cons v rest ih =>
      rw [List.map_cons, lookup_cons_ite, List.find?_cons]
      by_cases hname : s = name v
      · rw [if_pos hname, beq_iff_eq.2 hname.symm]
      · rw [if_neg hname, beq_eq_false_iff_ne.2 (Ne.symm hname), ih]
  rw [decodeName, hlookup]
  cases values.find? fun v => name v == s <;> rfl

/-- The names that decode to a strategy are those of the strategies. -/
theorem decodeName_strategy_iff {s : String} :
    (∃ v, decodeName (SelectorStrategy.all.map fun v => (v.name, v)) s = .ok v) ↔
      ∃ strategy : SelectorStrategy, strategy.name = s := by
  have hread := toOption_decodeName SelectorStrategy.all SelectorStrategy.name s
  have hfound : (SelectorStrategy.all.find? fun v => v.name == s).isSome = true ↔
      ∃ strategy : SelectorStrategy, strategy.name = s := by
    have hall : ∀ v : SelectorStrategy, v ∈ SelectorStrategy.all := fun v => by cases v <;> decide
    simp [List.find?_isSome, hall]
  rw [← hfound, ← hread]
  cases decodeName (SelectorStrategy.all.map fun v => (v.name, v)) s <;> simp [Except.toOption]

/-- A strategy is read from its name. -/
theorem reads_strategy : SelectorStrategy.codec.Reads Json.IsStrategy := by
  intro j
  cases j with
  | text s => exact decodeName_strategy_iff
  | object entries =>
    rcases entries with - | ⟨⟨s, j⟩, - | ⟨e, rest⟩⟩
    · exact ⟨nofun, False.elim⟩
    · change (∃ v, (decodeName _ s >>= _) = _) ↔ (_ ∧ _)
      rw [← decodeName_strategy_iff, ← decodeUnit_ofJson_iff]
      constructor
      · rintro ⟨v, hv⟩
        obtain ⟨a, ha, hv⟩ := bind_eq_ok.1 hv
        obtain ⟨⟨⟩, hunit, -⟩ := bind_eq_ok.1 hv
        exact ⟨⟨a, ha⟩, hunit⟩
      · rintro ⟨⟨a, ha⟩, hunit⟩
        exact ⟨a, bind_eq_ok.2 ⟨a, ha, bind_eq_ok.2 ⟨(), hunit, rfl⟩⟩⟩
    · exact ⟨nofun, False.elim⟩
  | _ => exact ⟨nofun, False.elim⟩

/-- The fields of a selector obey what is demanded of its object. -/
theorem obeys_selector : List.Forall₂ Field.Obeys Selector.fields
    [.may "strategy" Json.IsStrategy, .must "value" Json.IsText] :=
  .cons (reads_strategy.defaulted _) (.cons reads_string.required .nil)

/-- A selector is read from an object with a value and perhaps a strategy, or from a list of both.
-/
theorem reads_selector : Selector.codec.Reads Json.IsSelector := by
  intro j
  have hmap : ∀ (build : Row Selector.fields → Selector) (row : Except DecodeError _),
      (∃ v, row.map build = .ok v) ↔ ∃ r, row = .ok r := fun _ row => by
    cases row <;> simp [Except.map]
  refine (hmap _ _).trans ?_
  cases j with
  | object entries =>
    refine Iff.trans ?_ (Row.isSome_read?_iff_met obeys_selector)
    rw [Option.isSome_iff_exists]
    exact exists_congr fun row => Row.ofEntries_eq_ok_iff (by decide)
  | list items =>
    rcases items with - | ⟨strategy, - | ⟨value, - | ⟨extra, rest⟩⟩⟩
    · refine ⟨?_, False.elim⟩
      rintro ⟨row, hrow⟩
      cases hrow
    · refine ⟨?_, False.elim⟩
      rintro ⟨row, hrow⟩
      obtain ⟨_, -, hrow⟩ := bind_eq_ok.1 hrow
      cases hrow
    · change _ ↔ (_ ∧ _)
      rw [← reads_strategy, ← reads_string]
      constructor
      · rintro ⟨row, hrow⟩
        obtain ⟨a, ha, hrow⟩ := bind_eq_ok.1 hrow
        obtain ⟨⟨_, _⟩, hrow, -⟩ := bind_eq_ok.1 hrow
        obtain ⟨b, hb, -⟩ := bind_eq_ok.1 hrow
        exact ⟨⟨a, ha⟩, b, hb⟩
      · rintro ⟨⟨a, ha⟩, b, hb⟩
        exact ⟨(a, b, ()), bind_eq_ok.2 ⟨a, ha, bind_eq_ok.2 ⟨_,
          bind_eq_ok.2 ⟨b, hb, bind_eq_ok.2 ⟨_, rfl, rfl⟩⟩, rfl⟩⟩⟩
    · refine ⟨?_, False.elim⟩
      rintro ⟨row, hrow⟩
      obtain ⟨_, -, hrow⟩ := bind_eq_ok.1 hrow
      obtain ⟨_, hrow, -⟩ := bind_eq_ok.1 hrow
      obtain ⟨_, -, hrow⟩ := bind_eq_ok.1 hrow
      obtain ⟨_, hrow, -⟩ := bind_eq_ok.1 hrow
      cases hrow
  | _ =>
    refine ⟨?_, False.elim⟩
    rintro ⟨row, hrow⟩
    cases hrow

end Codec

open Codec in
/-- The variants of actions are those of the kinds, and their fields obey what the kinds demand. -/
theorem Action.obeys_variants : List.Forall₂
    (fun v kind => v.tag = kind.name ∧ List.Forall₂ Field.Obeys v.fields kind.demands)
    Action.variants ActionKind.all := by
  have hpoint : List.Forall₂ Field.Obeys [.required "x" int32, .required "y" int32]
      (ActionKind.demands .tap) := .cons reads_int32.required (.cons reads_int32.required .nil)
  have hpress : List.Forall₂ Field.Obeys
      [.required "x" int32, .required "y" int32, .defaulted "duration" uint64 defaultPressMs]
      (ActionKind.demands .longPress) :=
    .cons reads_int32.required (.cons reads_int32.required
      (.cons (reads_uint64.defaulted _) .nil))
  have hswipe : List.Forall₂ Field.Obeys
      [.required "startX" int32, .required "startY" int32, .required "endX" int32,
        .required "endY" int32, .defaulted "duration" uint64 defaultSwipeMs]
      (ActionKind.demands .swipe) :=
    .cons reads_int32.required (.cons reads_int32.required (.cons reads_int32.required
      (.cons reads_int32.required (.cons (reads_uint64.defaulted _) .nil))))
  have hinput : List.Forall₂ Field.Obeys
      [.required "text" string, .optional "selector" Selector.codec]
      (ActionKind.demands .inputText) :=
    .cons reads_string.required (.cons reads_selector.optional .nil)
  have hduration : List.Forall₂ Field.Obeys [.required "duration" uint64]
      (ActionKind.demands .wait) := .cons reads_uint64.required .nil
  have helement : List.Forall₂ Field.Obeys [.required "selector" Selector.codec]
      (ActionKind.demands .waitUntilExists) := .cons reads_selector.required .nil
  have hwords : ∀ key, List.Forall₂ Field.Obeys [.required key string]
      [.must key Json.IsText] := fun _ => .cons reads_string.required .nil
  have himage : List.Forall₂ Field.Obeys ImageTemplate.fields
      (ActionKind.demands .waitUntilImage) :=
    .cons reads_string.required (.cons reads_double.optional .nil)
  exact .cons ⟨rfl, hpoint⟩ <| .cons ⟨rfl, helement⟩ <| .cons ⟨rfl, hpoint⟩ <|
    .cons ⟨rfl, hpress⟩ <| .cons ⟨rfl, hswipe⟩ <| .cons ⟨rfl, hinput⟩ <|
    .cons ⟨rfl, hwords "key"⟩ <| .cons ⟨rfl, hwords "package"⟩ <|
    .cons ⟨rfl, hwords "package"⟩ <| .cons ⟨rfl, hwords "package"⟩ <|
    .cons ⟨rfl, hduration⟩ <| .cons ⟨rfl, helement⟩ <| .cons ⟨rfl, helement⟩ <|
    .cons ⟨rfl, hwords "text"⟩ <| .cons ⟨rfl, hwords "text"⟩ <| .cons ⟨rfl, himage⟩ <|
    .cons ⟨rfl, himage⟩ .nil

namespace ActionKind

/-- The list of kinds has every kind. -/
theorem mem_all (kind : ActionKind) : kind ∈ all := by cases kind <;> decide

/-- Each kind of action has a variant with its name, whose fields obey what the kind demands. -/
theorem exists_variant (kind : ActionKind) : ∃ v ∈ Action.variants,
    v.tag = kind.name ∧ List.Forall₂ Field.Obeys v.fields kind.demands := by
  obtain ⟨place, hplace, hkind⟩ := List.getElem_of_mem kind.mem_all
  have hlength := Action.obeys_variants.length_eq
  have hv := Action.obeys_variants.get (hlength ▸ hplace) hplace
  rw [List.get_eq_getElem, List.get_eq_getElem, hkind] at hv
  exact ⟨_, List.getElem_mem _, hv⟩

/-- A kind is found by its own name, and by no other. -/
theorem ofName?_eq_some_iff {name : String} {kind : ActionKind} :
    ofName? name = some kind ↔ kind.name = name := by
  constructor
  · intro h
    rw [ofName?] at h
    have hsame := List.find?_some h
    exact eq_of_beq hsame
  · rintro rfl
    cases kind <;> rfl

end ActionKind

namespace Node

/-- An action node names a kind of action. -/
def Names (n : Node) (kind : ActionKind) : Prop :=
  n.kind = .action ∧ n.params.get? "actionType" = some (.text kind.name)

variable {n : Node} {kind : ActionKind}

/-- The action of a node is named by the text under its key. -/
theorem actionType_eq_some_iff {name : String} :
    n.actionType = some name ↔ n.params.get? "actionType" = some (.text name) := by
  rw [actionType, Option.bind_eq_some_iff]
  constructor
  · rintro ⟨j, hj, htext⟩
    cases j with
    | text s =>
      cases htext
      exact hj
    | _ => cases htext
  · exact fun h => ⟨_, h, rfl⟩

/-- A node that names a kind gives an action of that kind, or says that its parameters are none. -/
theorem Names.action_eq (h : n.Names kind) :
    n.action = (Action.codec.ofJson (.ofMap n.params)).mapError (.invalid kind.name) := by
  rw [action, h.1, actionType_eq_some_iff.2 h.2]
  dsimp only
  rw [namedAction, ActionKind.ofName?_eq_some_iff.2 rfl]

/-- A node that names no action has an unknown one. -/
theorem action_eq_of_not_names (h : ∀ kind, ¬ n.Names kind) :
    n.action = .error (.unknown n.stepType) := by
  rw [action]
  split
  · next name hkind hname =>
    have hunknown : ActionKind.ofName? name = none := by
      rw [Option.eq_none_iff_forall_ne_some]
      intro kind hfound
      rw [← ActionKind.ofName?_eq_some_iff.1 hfound] at hname
      exact h kind ⟨hkind, actionType_eq_some_iff.1 hname⟩
    rw [namedAction, hunknown, stepType, hkind, hname]
    rfl
  · rfl

/-- A node names no action when it is no action node, or no kind has the name that it gives. -/
theorem forall_not_names_iff : (∀ kind, ¬ n.Names kind) ↔ n.kind ≠ .action ∨
    ∀ kind : ActionKind, n.params.get? "actionType" ≠ some (.text kind.name) := by
  by_cases hkind : n.kind = .action <;> simp [Names, hkind]

/-- A node that names a kind has an action, or its parameters are invalid. -/
theorem Names.action_cases (h : n.Names kind) : (∃ a, n.action = .ok a) ∨
    ∃ reason, n.action = .error (.invalid kind.name reason) := by
  rw [h.action_eq]
  cases Action.codec.ofJson (.ofMap n.params) with
  | ok a => exact .inl ⟨a, rfl⟩
  | error reason => exact .inr ⟨reason, rfl⟩

/-- A node that names a kind gives an action where all is met that the kind demands. -/
theorem Names.exists_ok_iff (h : n.Names kind) :
    (∃ a, n.action = .ok a) ↔ ∀ d ∈ kind.demands, d.Met n.params.entries := by
  obtain ⟨v, hv, htag, hobeys⟩ := kind.exists_variant
  have hread : Action.codec.ofJson (.ofMap n.params) = _ :=
    Action.union.ofMap_eq hv (htag ▸ h.2)
  rw [← Row.isSome_read?_iff_met hobeys, h.action_eq, hread, Option.isSome_iff_exists]
  simp only [← Row.ofEntries_eq_ok_iff (Action.union.distinct v hv)]
  cases Row.ofEntries .buffer v.fields (Document.ofEntries n.params.entries) none <;>
    simp [Except.map, Except.mapError]

/-- A node that names a kind has invalid parameters where something that the kind demands is missing
or of another form. -/
theorem Names.exists_invalid_iff (h : n.Names kind) :
    (∃ reason, n.action = .error (.invalid kind.name reason)) ↔
      ∃ d ∈ kind.demands, d.Missing n.params ∨ d.IllTyped n.params := by
  constructor
  · rintro ⟨reason, hreason⟩
    have hunmet : ¬ ∀ d ∈ kind.demands, d.Met n.params.entries := fun hmet => by
      obtain ⟨a, ha⟩ := h.exists_ok_iff.2 hmet
      cases hreason.symm.trans ha
    simp only [Demand.met_map_iff] at hunmet
    push Not at hunmet
    obtain ⟨d, hd, hfault⟩ := hunmet
    exact ⟨d, hd, or_iff_not_imp_left.2 hfault⟩
  · rintro ⟨d, hd, hfault⟩
    refine h.action_cases.resolve_left fun hok => ?_
    obtain ⟨hmissing, htyped⟩ := Demand.met_map_iff.1 (h.exists_ok_iff.1 hok d hd)
    exact hfault.elim hmissing htyped

/-- The action that is read is of the kind that the node names. -/
theorem names_of_action_eq_ok {a : Action} (h : n.action = .ok a) :
    n.Names a.kind ∧ Action.codec.ofJson (.ofMap n.params) = .ok a := by
  by_cases hnames : ∃ kind, n.Names kind
  · obtain ⟨kind, hnames⟩ := hnames
    rw [hnames.action_eq] at h
    have hread : Action.codec.ofJson (.ofMap n.params) = .ok a := by
      cases hjson : Action.codec.ofJson (.ofMap n.params) with
      | error e =>
        rw [hjson] at h
        cases h
      | ok a' =>
        rw [hjson] at h
        cases h
        rfl
    exact ⟨⟨hnames.1, Action.union.get?_tag_of_ofMap hread⟩, hread⟩
  · rw [action_eq_of_not_names (not_exists.1 hnames)] at h
    cases h

/-- An action that is read is of the kind that the node names, which tells how its parameters are
read. -/
theorem action_eq_ok {a : Action} (h : n.action = .ok a) :
    n.kind = .action ∧ n.actionType = some a.kind.name ∧
      Action.codec.ofJson (.ofMap n.params) = .ok a := by
  obtain ⟨⟨hkind, hname⟩, hread⟩ := names_of_action_eq_ok h
  exact ⟨hkind, actionType_eq_some_iff.2 hname, hread⟩

end Node

/-- The keys under which a node sets the options of its step. -/
def StepOptions.names : List String :=
  ["retryCount", "retryDelay", "timeout", "interval", "disabled", "maxVisits"]

namespace Action

/-- The threshold of an action that waits for an image is finite, if it has one. -/
def HasFiniteThreshold : Action → Prop
  | .await (.image i) _ => ∀ x ∈ i.threshold, x.isFinite = true
  | _ => True

/-- All actions can be written but those with a threshold that is not finite. -/
theorem writable_of_finite {a : Action} (h : a.HasFiniteThreshold) :
    Form.Writable Action.codec a := by
  change forms.Writable a
  delta forms
  dsimp only [id, inferInstance]
  refine ⟨?_, ?_, ?_, ?_, ?_, ?_, ?_, ?_, ?_, ?_, ?_, ?_, ?_, ?_, ?_, ?_, ?_, trivial⟩
  all_goals
    intro row hrow
    simp only [variant] at hrow
    split at hrow
    · cases hrow
      and_intros
      all_goals first | trivial | exact h | exact fun _ _ => ⟨trivial, trivial, trivial⟩
    · cases hrow

/-- No field of an action is an option of its step, and each has one name. -/
theorem apart_from_options : ∀ v ∈ variants, ∀ f ∈ v.fields,
    f.aliases = [] ∧ f.name ∉ StepOptions.names := by decide

end Action

namespace Node

variable {n : Node}

/-- An action is read from what is written for it, whatever options of the step stand beside. -/
theorem action_of_encode {a : Action} (hfinite : a.HasFiniteThreshold) (hkind : n.kind = .action)
    (h : ∀ key ∉ StepOptions.names, n.params.get? key = (Action.codec.encode a).get? key) :
    n.action = .ok a := by
  obtain ⟨entries, hencode, hspells⟩ := Form.write (Action.writable_of_finite hfinite)
  obtain ⟨v, hv, F, row, htake, -, hrow⟩ := hspells.exists
  have hlawful := Action.union.lawful v hv
  have hname : n.params.get? "actionType" = some (.text a.kind.name) :=
    (h "actionType" (by decide)).trans (Action.union.get?_encode a)
  have hnames : n.Names a.kind := ⟨hkind, hname⟩
  have hstands : F.Spells row n.params.entries := by
    refine hrow.of_lookup (fun f hf => (Action.apart_from_options v hv f hf).1) fun f hf => ?_
    rw [h f.name (Action.apart_from_options v hv f hf).2, hencode, Json.get?]
  have hread : Action.codec.ofJson (.ofMap n.params) = _ :=
    Action.union.ofMap_of_spells hv (hlawful.tagOf_eq a row htake ▸ hname) hstands
  rw [hnames.action_eq, hread, hlawful.build_take a row htake]
  rfl

/-- A node has no action for one of two reasons. Its action is unknown if the node is no action node
or if its type is missing, is no text, or is the name of none of the seventeen kinds; the error then
gives the type of the step. Its parameters are invalid if the node names a kind and something that
the kind demands is missing or of another form; the error then gives the name of the kind. Otherwise
the node has an action, whose kind has the name that the node gives, and is the kind that is read
from that name. In turn each action that can be written is that of every action node whose
parameters are what is written for it, but for the options of the step. -/
theorem action_read_exactly (n : Node) :
    (∀ stepType, n.action = .error (.unknown stepType) ↔ stepType = n.stepType ∧
      (n.kind ≠ .action ∨
        ∀ kind : ActionKind, n.params.get? "actionType" ≠ some (.text kind.name))) ∧
      (∀ stepType, (∃ reason, n.action = .error (.invalid stepType reason)) ↔
        ∃ kind, n.Names kind ∧ stepType = kind.name ∧
          ∃ d ∈ kind.demands, d.Missing n.params ∨ d.IllTyped n.params) ∧
      ((∃ a, n.action = .ok a) ↔
        ∃ kind, n.Names kind ∧ ∀ d ∈ kind.demands, ¬ d.Missing n.params ∧ ¬ d.IllTyped n.params) ∧
      (∀ a, n.action = .ok a → n.actionType = some a.kind.name ∧
        ActionKind.ofName? a.kind.name = some a.kind ∧
        ActionKind.codec.ofJson (.text a.kind.name) = .ok a.kind) ∧
      ∀ a : Action, a.HasFiniteThreshold → n.kind = .action →
        (∀ key ∉ StepOptions.names, n.params.get? key = (Action.codec.encode a).get? key) →
        n.action = .ok a := by
  refine ⟨fun stepType => ?unknown, fun stepType => ?invalid, ?ok, fun a ha => ?kind,
    fun a hfinite hkind h => action_of_encode hfinite hkind h⟩
  case unknown =>
    rw [← forall_not_names_iff]
    constructor
    · intro h
      have hnot : ∀ kind, ¬ n.Names kind := fun kind hnames => by
        rcases hnames.action_cases with ⟨a, ha⟩ | ⟨reason, hreason⟩
        · cases h.symm.trans ha
        · cases h.symm.trans hreason
      rw [action_eq_of_not_names hnot] at h
      cases h
      exact ⟨rfl, hnot⟩
    · rintro ⟨rfl, hnot⟩
      exact action_eq_of_not_names hnot
  case invalid =>
    constructor
    · rintro ⟨reason, h⟩
      by_cases hnames : ∃ kind, n.Names kind
      · obtain ⟨kind, hnames⟩ := hnames
        rcases hnames.action_cases with ⟨a, ha⟩ | ⟨reason', hreason⟩
        · cases h.symm.trans ha
        · cases h.symm.trans hreason
          exact ⟨kind, hnames, rfl, hnames.exists_invalid_iff.1 ⟨reason, h⟩⟩
      · rw [action_eq_of_not_names (not_exists.1 hnames)] at h
        cases h
    · rintro ⟨kind, hnames, rfl, hfault⟩
      exact hnames.exists_invalid_iff.2 hfault
  case ok =>
    simp only [← Demand.met_map_iff]
    constructor
    · rintro ⟨a, ha⟩
      have hnames := (names_of_action_eq_ok ha).1
      exact ⟨a.kind, hnames, hnames.exists_ok_iff.1 ⟨a, ha⟩⟩
    · rintro ⟨kind, hnames, hmet⟩
      exact hnames.exists_ok_iff.2 hmet
  case kind =>
    refine ⟨(action_eq_ok ha).2.1, ActionKind.ofName?_eq_some_iff.2 rfl, ?_⟩
    cases a.kind <;> rfl

end Node

namespace Sample

/-- A half. -/
def half : Double := ⟨0x3FE0000000000000⟩

/-- The parameters of a wait for a logo, with an option of the step among them. -/
def sightParams : List (String × Json) :=
  [("actionType", .text "waitUntilImage"), ("retryCount", .int 2), ("template", .text "logo"),
    ("threshold", .real half)]

/-- A node that waits for a logo. -/
def sight : Node := .ofParams "a" .action (.object sightParams)

/-- A tap at a place that is half missing. -/
def halfTap : Node :=
  .ofParams "t" .action (.object [("actionType", .text "tap"), ("x", .int 1)])

end Sample

namespace Node

open Sample

/-- The wait for a logo is read from what is written for it, with an option beside it; a tap without
one of its coordinates has invalid parameters. -/
theorem action_read_exactly_sight :
    sight.action = .ok (.await (.image ⟨"logo", some half⟩) true) ∧
      ∃ reason, halfTap.action = .error (.invalid "tap" reason) := by
  obtain ⟨-, -, -, -, hencode⟩ := action_read_exactly sight
  obtain ⟨-, hinvalid, -⟩ := action_read_exactly halfTap
  have hfinite : (Action.await (.image ⟨"logo", some half⟩) true).HasFiniteThreshold := by
    rintro x ⟨⟩
    decide
  have hentries : sight.params.entries = sightParams :=
    TextMap.entries_ofList (by unfold KeysIncrease; decide)
  refine ⟨hencode _ hfinite rfl fun key hkey => ?_, (hinvalid _).2 ⟨.tap, ⟨rfl, ?_⟩, rfl, _,
    List.mem_cons_of_mem _ List.mem_cons_self, .inl ⟨?_, rfl⟩⟩⟩
  · have hne : key ≠ "retryCount" := fun heq => hkey (heq ▸ List.mem_cons_self)
    rw [TextMap.get?, hentries]
    change sightParams.lookup key = List.lookup key [("actionType", .text "waitUntilImage"),
      ("template", .text "logo"), ("threshold", .real half)]
    simp only [sightParams, lookup_cons_ite, if_neg hne]
  · rfl
  · rfl

end Node

end DeviceSuite
