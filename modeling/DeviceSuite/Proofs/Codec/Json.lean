import DeviceSuite.Json.Document
import DeviceSuite.Proofs.TextMap

/-!
# Values in memory as documents

The document of a value in memory has no faults: it can be skipped, and it can be read back. What is
read back is the value itself if it is normal, that is, if its objects list their keys in order; and
whatever is read from a document is normal.
-/

namespace DeviceSuite

section

variable {ε α β : Type} {x : Except ε α} {b : β}

/-- Two steps succeed when the first does, and the second with its result. -/
theorem bind_eq_ok {f : α → Except ε β} : (x >>= f) = .ok b ↔ ∃ a, x = .ok a ∧ f a = .ok b := by
  cases x with
  | error e => exact ⟨nofun, fun ⟨_, h, _⟩ => nomatch h⟩
  | ok a => exact ⟨fun h => ⟨a, rfl, h⟩, fun ⟨_, h, hf⟩ => Except.ok.inj h ▸ hf⟩

/-- A result that is changed comes from a result. -/
theorem map_eq_ok {f : α → β} : x.map f = .ok b ↔ ∃ a, x = .ok a ∧ f a = b := by
  cases x with
  | error e => exact ⟨nofun, fun ⟨_, h, _⟩ => nomatch h⟩
  | ok a =>
    exact ⟨fun h => ⟨a, rfl, Except.ok.inj h⟩, fun ⟨_, h, hf⟩ => by
      cases h
      exact congrArg _ hf⟩

end

namespace Json

/-- A value whose objects list their entries by increasing key, as maps do. -/
inductive Normal : Json → Prop where
  | null : Normal .null
  | bool (b : Bool) : Normal (.bool b)
  | int (n : Int) : Normal (.int n)
  | real (x : Double) : Normal (.real x)
  | text (s : String) : Normal (.text s)
  | list {items : List Json} (h : ∀ j ∈ items, Normal j) : Normal (.list items)
  | object {entries : List (String × Json)} (h : ∀ e ∈ entries, Normal e.2)
    (hkeys : KeysIncrease entries) : Normal (.object entries)

end Json

namespace Document

mutual

/-- A value in memory can be skipped. -/
theorem skipFault_ofJson (j : Json) : (ofJson j).skipFault = none := by
  cases j with
  | list items => rw [ofJson, skipFault, skipItems_ofItems]; rfl
  | object entries => rw [ofJson, skipFault, skipEntries_ofEntries]; rfl
  | _ => rfl

/-- A list that was spelt out has no fault to be skipped. -/
theorem skipItems_ofItems (items : List Json) : skipItems (ofItems items) = none := by
  cases items with
  | nil => rfl
  | cons item rest => rw [ofItems, skipItems, skipFault_ofJson item, skipItems_ofItems rest]; rfl

/-- A map that was spelt out has no fault to be skipped. -/
theorem skipEntries_ofEntries (entries : List (String × Json)) :
    skipEntries (ofEntries entries) = none := by
  cases entries with
  | nil => rfl
  | cons e rest =>
    rw [ofEntries, skipEntries, skipFault_ofJson e.2, skipEntries_ofEntries rest]
    rfl

end

mutual

/-- A value in memory can be read back. -/
theorem toJson_ofJson_isOk (j : Json) : ∃ j', (ofJson j).toJson = .ok j' := by
  cases j with
  | list items =>
    obtain ⟨items', h⟩ := toItems_ofItems_isOk items
    exact ⟨_, by rw [ofJson, toJson, h]; rfl⟩
  | object entries =>
    obtain ⟨entries', h⟩ := toEntries_ofEntries_isOk entries
    exact ⟨_, by rw [ofJson, toJson, h]; rfl⟩
  | _ => exact ⟨_, rfl⟩

/-- A list that was spelt out is read. -/
theorem toItems_ofItems_isOk (items : List Json) :
    ∃ items', toItems (ofItems items) = .ok items' := by
  cases items with
  | nil => exact ⟨_, rfl⟩
  | cons item rest =>
    obtain ⟨item', hitem⟩ := toJson_ofJson_isOk item
    obtain ⟨rest', hrest⟩ := toItems_ofItems_isOk rest
    exact ⟨_, by rw [ofItems, toItems, hitem, hrest]; rfl⟩

/-- A map that was spelt out is read. -/
theorem toEntries_ofEntries_isOk (entries : List (String × Json)) :
    ∃ entries', toEntries (ofEntries entries) = .ok entries' := by
  cases entries with
  | nil => exact ⟨_, rfl⟩
  | cons e rest =>
    obtain ⟨value, hvalue⟩ := toJson_ofJson_isOk e.2
    obtain ⟨rest', hrest⟩ := toEntries_ofEntries_isOk rest
    exact ⟨_, by rw [ofEntries, toEntries, hvalue, hrest]; rfl⟩

end

/-- A list is read back if its items are. -/
theorem toItems_ofItems {items : List Json} (h : ∀ j ∈ items, (ofJson j).toJson = .ok j) :
    toItems (ofItems items) = .ok items := by
  induction items with
  | nil => rfl
  | cons item rest ih =>
    obtain ⟨hitem, hrest⟩ := List.forall_mem_cons.1 h
    rw [ofItems, toItems, hitem, ih hrest]
    rfl

/-- A map is read back if its values are. -/
theorem toEntries_ofEntries {entries : List (String × Json)}
    (h : ∀ e ∈ entries, (ofJson e.2).toJson = .ok e.2) :
    toEntries (ofEntries entries) = .ok entries := by
  induction entries with
  | nil => rfl
  | cons e rest ih =>
    obtain ⟨hvalue, hrest⟩ := List.forall_mem_cons.1 h
    rw [ofEntries, toEntries, hvalue, ih hrest]
    rfl

/-- A normal value is read back as it is. -/
theorem toJson_ofJson {j : Json} (h : j.Normal) : (ofJson j).toJson = .ok j := by
  induction h with
  | list _ ih =>
    rw [ofJson, toJson, toItems_ofItems ih]
    rfl
  | object _ hkeys ih =>
    have hmap := congrArg Json.object (TextMap.entries_ofList hkeys)
    rw [ofJson, toJson, toEntries_ofEntries ih]
    exact congrArg Except.ok hmap
  | _ => rfl

/-- A value at the end of a document without a fault is the value. -/
theorem atEnd_eq_ok {α : Type} {ending : Option Fault} {value value' : α}
    (h : atEnd ending value = .ok value') : ending = none ∧ value = value' := by
  cases ending with
  | none => exact ⟨rfl, Except.ok.inj h⟩
  | some f => cases h

mutual

/-- What is read from a document is normal. -/
theorem normal_toJson (d : Document) {j : Json} (h : d.toJson = .ok j) : j.Normal := by
  cases d with
  | list items ending =>
    rw [toJson] at h
    obtain ⟨values, hvalues, h⟩ := bind_eq_ok.1 h
    obtain ⟨-, rfl⟩ := atEnd_eq_ok h
    exact .list (normal_toItems items hvalues)
  | object entries ending =>
    rw [toJson] at h
    obtain ⟨values, hvalues, h⟩ := bind_eq_ok.1 h
    obtain ⟨-, rfl⟩ := atEnd_eq_ok h
    exact .object (fun e he => normal_toEntries entries hvalues e (TextMap.mem_ofList he))
      (TextMap.ofList values).increasing
  | null | bool | int | real | text =>
    cases h
    constructor
  | missing | brokenText | broken => cases h

/-- Whatever is read of a list is in normal form. -/
theorem normal_toItems (items : List Document) {values : List Json}
    (h : toItems items = .ok values) : ∀ j ∈ values, j.Normal := by
  cases items with
  | nil =>
    cases h
    exact nofun
  | cons item rest =>
    rw [toItems] at h
    obtain ⟨value, hvalue, h⟩ := bind_eq_ok.1 h
    obtain ⟨values', hvalues, h⟩ := bind_eq_ok.1 h
    cases h
    exact List.forall_mem_cons.2 ⟨normal_toJson item hvalue, normal_toItems rest hvalues⟩

/-- Whatever is read of a map is in normal form. -/
theorem normal_toEntries (entries : List (Document × Document)) {values : List (String × Json)}
    (h : toEntries entries = .ok values) : ∀ e ∈ values, e.2.Normal := by
  cases entries with
  | nil =>
    cases h
    exact nofun
  | cons entry rest =>
    rw [toEntries] at h
    obtain ⟨name, -, h⟩ := bind_eq_ok.1 h
    obtain ⟨value, hvalue, h⟩ := bind_eq_ok.1 h
    obtain ⟨values', hvalues, h⟩ := bind_eq_ok.1 h
    cases h
    exact List.forall_mem_cons.2 ⟨normal_toJson entry.2 hvalue, normal_toEntries rest hvalues⟩

end

mutual

/-- The numbers of a document are those that a value can hold: its integers fit 64 bits, signed or
unsigned, and its doubles are finite. -/
def Fits : Document → Prop
  | int n => -0x8000000000000000 ≤ n ∧ n ≤ 0xffffffffffffffff
  | real x => x.isFinite = true
  | list items _ => FitsItems items
  | object entries _ => FitsEntries entries
  | _ => True

/-- The numbers of items are those that a value can hold. -/
def FitsItems : List Document → Prop
  | [] => True
  | item :: rest => item.Fits ∧ FitsItems rest

/-- The numbers of entries are those that a value can hold. -/
def FitsEntries : List (Document × Document) → Prop
  | [] => True
  | (_, value) :: rest => value.Fits ∧ FitsEntries rest

end

/-- A list fits when all of its items do. -/
theorem fitsItems_iff {items : List Document} : FitsItems items ↔ ∀ d ∈ items, d.Fits := by
  induction items with
  | nil => simp [FitsItems]
  | cons item rest ih => rw [FitsItems, ih, List.forall_mem_cons]

/-- A map fits when all of its values do. -/
theorem fitsEntries_iff {entries : List (Document × Document)} :
    FitsEntries entries ↔ ∀ e ∈ entries, e.2.Fits := by
  induction entries with
  | nil => simp [FitsEntries]
  | cons e rest ih => rw [FitsEntries, ih, List.forall_mem_cons]

end Document

/-- The numbers of a value are those that it can hold. -/
def Json.Fits (j : Json) : Prop := (Document.ofJson j).Fits

end DeviceSuite
