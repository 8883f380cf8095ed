import DeviceSuite.TextMap

/-!
# Maps and their entries

What is found in a map after an insertion, and in a map of a list of entries; and what entries
such a map has.
-/

namespace DeviceSuite

variable {α : Type}

/-- The first entry is looked at before the others. -/
theorem lookup_cons_ite (entry : String × α) (rest : List (String × α)) (key : String) :
    (entry :: rest).lookup key = if key = entry.1 then some entry.2 else rest.lookup key := by
  rw [List.lookup_cons]
  by_cases hkey : key = entry.1
  · rw [if_pos hkey, hkey, beq_self_eq_true]
  · rw [if_neg hkey, beq_eq_false_iff_ne.2 hkey]

/-- A key that is put into sorted entries finds its value, and the others find what they found. -/
theorem lookup_putEntry (key : String) (value : α) (entries : List (String × α)) (key' : String) :
    (putEntry key value entries).lookup key' =
      if key' = key then some value else entries.lookup key' := by
  induction entries with
  | nil => exact lookup_cons_ite (key, value) [] key'
  | cons entry rest ih =>
    rw [putEntry]
    split
    · exact lookup_cons_ite (key, value) (entry :: rest) key'
    · next hge =>
      split
      · next hlt =>
        rw [lookup_cons_ite, lookup_cons_ite, ih]
        by_cases hentry : key' = entry.1
        · have hne : key' ≠ key := fun heq => String.lt_irrefl _ ((heq ▸ hentry) ▸ hlt)
          rw [if_pos hentry, if_neg hne, if_pos hentry]
        · rw [if_neg hentry, if_neg hentry]
      · next hle =>
        have hentry : key = entry.1 :=
          String.le_antisymm (String.not_lt.1 hle) (String.not_lt.1 hge)
        rw [lookup_cons_ite, lookup_cons_ite, ← hentry]
        by_cases hkey : key' = key
        · rw [if_pos hkey, if_pos hkey]
        · rw [if_neg hkey, if_neg hkey, if_neg hkey]

namespace TextMap

/-- A map with a new entry finds that, and else what it found. -/
theorem get?_insert (m : TextMap α) (key : String) (value : α) (key' : String) :
    (m.insert key value).get? key' = if key' = key then some value else m.get? key' :=
  lookup_putEntry key value m.entries key'

/-- A new entry is found under its key. -/
@[simp] theorem get?_insert_self (m : TextMap α) (key : String) (value : α) :
    (m.insert key value).get? key = some value := by
  rw [get?_insert, if_pos rfl]

/-- An entry does not change what the other keys find. -/
theorem get?_insert_of_ne (m : TextMap α) {key key' : String} (h : key' ≠ key) (value : α) :
    (m.insert key value).get? key' = m.get? key' := by
  rw [get?_insert, if_neg h]

/-- A map in which all keys have one value. -/
theorem get?_ofList_map (keys : List String) (value : α) (key : String) :
    (ofList (keys.map fun k => (k, value))).get? key = if key ∈ keys then some value else none := by
  have hall : ∀ (m : TextMap α),
      ((keys.map fun k => (k, value)).foldl (fun m e => m.insert e.1 e.2) m).get? key =
        if key ∈ keys then some value else m.get? key := by
    induction keys with
    | nil => simp
    | cons k rest ih =>
      intro m
      rw [List.map_cons, List.foldl_cons, ih, get?_insert]
      by_cases hrest : key ∈ rest <;> by_cases hk : key = k <;> simp [hrest, hk]
  exact hall empty

/-- A key behind all others is put at the end. -/
theorem putEntry_of_last {key : String} {value : α} {entries : List (String × α)}
    (h : ∀ e ∈ entries, e.1 < key) : putEntry key value entries = entries ++ [(key, value)] := by
  induction entries with
  | nil => rfl
  | cons entry rest ih =>
    obtain ⟨hentry, hrest⟩ := List.forall_mem_cons.1 h
    rw [putEntry, if_neg (String.lt_asymm hentry), if_pos hentry, ih hrest, List.cons_append]

/-- The map of entries whose keys increase has these entries. -/
theorem entries_ofList {entries : List (String × α)} (h : KeysIncrease entries) :
    (ofList entries).entries = entries := by
  have hfold : ∀ (rest : List (String × α)) (m : TextMap α), KeysIncrease (m.entries ++ rest) →
      (rest.foldl (fun m e => m.insert e.1 e.2) m).entries = m.entries ++ rest := by
    intro rest
    induction rest with
    | nil => simp
    | cons e rest ih =>
      intro m hm
      have hlast : ∀ e' ∈ m.entries, e'.1 < e.1 := fun e' he' =>
        (List.pairwise_append.1 hm).2.2 e' he' e List.mem_cons_self
      have hinsert : (m.insert e.1 e.2).entries = m.entries ++ [e] := putEntry_of_last hlast
      have happend : m.entries ++ e :: rest = (m.insert e.1 e.2).entries ++ rest := by
        rw [hinsert, List.append_assoc, List.singleton_append]
      rw [List.foldl_cons, happend]
      exact ih _ (happend ▸ hm)
  exact hfold entries empty h

/-- A map is made of its own entries. -/
@[simp] theorem ofList_entries (m : TextMap α) : ofList m.entries = m :=
  ext (entries_ofList m.increasing)

/-- The entries of the map of a list are entries of the list. -/
theorem mem_ofList {entries : List (String × α)} {e : String × α}
    (h : e ∈ (ofList entries).entries) : e ∈ entries := by
  have hfold : ∀ (rest : List (String × α)) (m : TextMap α),
      e ∈ (rest.foldl (fun m e => m.insert e.1 e.2) m).entries → e ∈ m.entries ∨ e ∈ rest := by
    intro rest
    induction rest with
    | nil => exact fun m hm => .inl hm
    | cons first rest ih =>
      intro m hm
      rcases ih _ hm with hin | hrest
      · rcases mem_putEntry hin with rfl | hm
        · exact .inr List.mem_cons_self
        · exact .inl hm
      · exact .inr (List.mem_cons_of_mem _ hrest)
  exact (hfold entries empty h).resolve_left List.not_mem_nil

end TextMap

end DeviceSuite
