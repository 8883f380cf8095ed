/-!
# Maps with text keys

A finite map whose entries are listed by strictly increasing key, in the order of code points.
Two maps with the same look-ups are therefore equal, and listing a map needs no sorting.
-/

namespace DeviceSuite

/-- The keys of a list of entries increase strictly. -/
def KeysIncrease {α : Type} (entries : List (String × α)) : Prop :=
  entries.Pairwise fun a b => a.1 < b.1

/-- Put a value under a key, replacing the value that was there. -/
def putEntry {α : Type} (key : String) (value : α) : List (String × α) → List (String × α)
  | [] => [(key, value)]
  | entry :: rest =>
    if key < entry.1 then (key, value) :: entry :: rest
    else if entry.1 < key then entry :: putEntry key value rest
    else (key, value) :: rest

/-- Insertion adds no key but the given one. -/
theorem mem_putEntry {α : Type} {key : String} {value : α} {entries : List (String × α)}
    {e : String × α} (h : e ∈ putEntry key value entries) : e = (key, value) ∨ e ∈ entries := by
  induction entries with
  | nil => simpa [putEntry] using h
  | cons entry rest ih =>
    rw [putEntry] at h
    split at h
    · simpa using h
    · split at h
      · rcases List.mem_cons.1 h with h | h
        · simp [h]
        · rcases ih h with h | h <;> simp [h]
      · rcases List.mem_cons.1 h with h | h <;> simp [h]

/-- Insertion keeps the keys increasing. -/
theorem KeysIncrease.putEntry {α : Type} {entries : List (String × α)}
    (h : KeysIncrease entries) (key : String) (value : α) :
    KeysIncrease (putEntry key value entries) := by
  induction entries with
  | nil => exact List.pairwise_singleton _ _
  | cons entry rest ih =>
    obtain ⟨hhead, hrest⟩ := List.pairwise_cons.1 h
    rw [DeviceSuite.putEntry]
    split
    · next hlt =>
      refine List.pairwise_cons.2 ⟨fun e he => ?_, h⟩
      rcases List.mem_cons.1 he with rfl | he
      · exact hlt
      · exact String.lt_trans hlt (hhead e he)
    · next hge =>
      split
      · next hgt =>
        refine List.pairwise_cons.2 ⟨fun e he => ?_, ih hrest⟩
        rcases mem_putEntry he with rfl | he
        · exact hgt
        · exact hhead e he
      · next hle =>
        have heq : key = entry.1 :=
          String.le_antisymm (String.not_lt.1 hle) (String.not_lt.1 hge)
        exact List.pairwise_cons.2 ⟨fun e he => heq ▸ hhead e he, hrest⟩

/-- A finite map from text to `α`. -/
structure TextMap (α : Type) where
  entries : List (String × α)
  increasing : KeysIncrease entries

namespace TextMap

variable {α : Type}

/-- The map without entries. -/
def empty : TextMap α := ⟨[], List.Pairwise.nil⟩

instance : Inhabited (TextMap α) := ⟨empty⟩

/-- Put a value under a key, replacing the value that was there. -/
def insert (m : TextMap α) (key : String) (value : α) : TextMap α :=
  ⟨putEntry key value m.entries, m.increasing.putEntry key value⟩

/-- The map of a list of entries, where the last entry of a key wins. -/
def ofList (entries : List (String × α)) : TextMap α :=
  entries.foldl (fun m entry => m.insert entry.1 entry.2) empty

/-- The value under a key. -/
def get? (m : TextMap α) (key : String) : Option α := m.entries.lookup key

/-- Whether a key has a value. -/
def contains (m : TextMap α) (key : String) : Bool := (m.get? key).isSome

/-- Remove a key with its value. -/
def erase (m : TextMap α) (key : String) : TextMap α :=
  ⟨m.entries.filter fun entry => entry.1 != key, m.increasing.filter _⟩

/-- The keys in increasing order. -/
def keys (m : TextMap α) : List String := m.entries.map (·.1)

/-- The number of entries. -/
def size (m : TextMap α) : Nat := m.entries.length

/-- Two maps with the same entries are the same. -/
@[ext] theorem ext {m n : TextMap α} (h : m.entries = n.entries) : m = n := by
  cases m; cases n; cases h; rfl

end TextMap

end DeviceSuite
