import DeviceSuite.Proofs.Codec.Record
import DeviceSuite.Proofs.TextMap

/-!
# Records read field by field

A record in memory is read as if each of its fields were read by itself, from the entries that name
it: their order does not matter, nor does what the entries of other fields hold. But the record is
read as a whole, and a single field that cannot be read leaves nothing of it.
-/

namespace DeviceSuite

/-- The entries of a map under one key are one at most. -/
theorem TextMap.filter_key {α : Type} (m : TextMap α) (key : String) :
    (m.entries.filter fun e => e.1 == key) = (m.get? key).toList.map (key, ·) := by
  obtain ⟨entries, hincreasing⟩ := m
  simp only [get?]
  induction entries with
  | nil => rfl
  | cons e rest ih =>
    obtain ⟨hhead, hrest⟩ := List.pairwise_cons.1 hincreasing
    rw [List.filter_cons, lookup_cons_ite]
    by_cases hkey : key = e.1
    · have hnone : (rest.filter fun e => e.1 == key) = [] := by
        rw [List.filter_eq_nil_iff]
        intro e' he' heq
        exact String.lt_irrefl _ ((hkey.symm.trans (eq_of_beq heq).symm) ▸ hhead e' he')
      rw [if_pos (beq_iff_eq.2 hkey.symm), hnone, if_pos hkey, hkey]
      rfl
    · rw [if_neg (by simpa using Ne.symm hkey), if_neg hkey]
      exact ih hrest

/-- The value of a field that is read by itself from the entries of an object: what the one entry
says that names it, or the value that it has when it is absent. -/
def Field.read? (f : Field) (source : Source) (entries : List (String × Json)) : Option f.Value :=
  match entries.filter fun e => f.answersTo e.1 with
  | [] => f.absent
  | [e] => (f.decode source (.ofJson e.2)).toOption
  | _ => none

/-- The values of fields that are read by themselves, if all can be read. -/
def Row.read? (source : Source) (entries : List (String × Json)) :
    (fs : List Field) → Option (Row fs)
  | [] => some ()
  | f :: fs => do
    let value ← f.read? source entries
    let row ← read? source entries fs
    some (value, row)

variable {f : Field} {fs : List Field} {source : Source} {entries : List (String × Json)}

/-- A field without aliases answers to its name alone. -/
theorem Field.answersTo_of_unaliased (h : f.aliases = []) (key : String) :
    f.answersTo key = (key == f.name) := by
  simp [answersTo, h]

/-- A field with one name is read from what a map holds under that. -/
theorem Field.read?_map (h : f.aliases = []) (m : TextMap Json) :
    f.read? source m.entries = match m.get? f.name with
      | none => f.absent
      | some j => (f.decode source (.ofJson j)).toOption := by
  simp only [read?, answersTo_of_unaliased h, TextMap.filter_key]
  cases m.get? f.name <;> rfl

namespace Slots

/-- What the entries of an object put into the place of a field. -/
inductive Fills (f : Field) (source : Source) (entries : List (String × Json)) :
    Option f.Value → Prop where
  | none : (entries.filter fun e => f.answersTo e.1) = [] → Fills f source entries .none
  | one {e : String × Json} {value : f.Value} :
    (entries.filter fun e => f.answersTo e.1) = [e] →
    f.decode source (.ofJson e.2) = .ok value → Fills f source entries (some value)

/-- A field stays filled as it is when an entry comes first that it does not answer to. -/
theorem Fills.cons {e : String × Json} {place : Option f.Value} (h : Fills f source entries place)
    (he : f.answersTo e.1 = false) : Fills f source (e :: entries) place := by
  have hfilter : ((e :: entries).filter fun e => f.answersTo e.1) =
      entries.filter fun e => f.answersTo e.1 := by
    rw [List.filter_cons, he]
    rfl
  cases h with
  | none hnone => exact .none (hfilter.trans hnone)
  | one hone hvalue => exact .one (hfilter.trans hone) hvalue

/-- A field is read from what the entries put into its place. -/
theorem read?_eq_some_iff {value : f.Value} : f.read? source entries = some value ↔
    ∃ place, Fills f source entries place ∧ place.or f.absent = some value := by
  constructor
  · intro h
    rw [Field.read?] at h
    split at h
    · next hnone => exact ⟨.none, .none hnone, h⟩
    · next e hone =>
      cases hdecode : f.decode source (.ofJson e.2) with
      | error error =>
        rw [hdecode] at h
        cases h
      | ok value' =>
        rw [hdecode] at h
        exact ⟨some value', .one hone hdecode, h⟩
    · cases h
  · rintro ⟨place, hfills, hvalue⟩
    cases hfills with
    | none hnone =>
      rw [Field.read?, hnone]
      exact hvalue
    | one hone hdecode =>
      rw [Field.read?, hone]
      simp only [hdecode]
      exact hvalue

/-- A place that is filled takes no other entry. -/
theorem filter_eq_nil_of_putAll {value : f.Value} {rest : Slots fs} {slots : Slots (f :: fs)}
    (h : putAll source (f :: fs) (Document.ofEntries entries) (some value, rest) = .ok slots) :
    (entries.filter fun e => f.answersTo e.1) = [] := by
  induction entries generalizing rest with
  | nil => rfl
  | cons e entries ih =>
    rw [putAll_cons] at h
    obtain ⟨slots', hput, h⟩ := bind_eq_ok.1 h
    cases hnames : f.answersTo e.1 with
    | true =>
      simp only [put, hnames, ↓reduceIte] at hput
      cases hput
    | false =>
      rw [put_cons_of_not hnames] at hput
      obtain ⟨rest', -, rfl⟩ := map_eq_ok.1 hput
      rw [List.filter_cons_of_neg (by simp [hnames])]
      exact ih h

/-- Entries are read into the place of the first field and into those of the others, apart from each
other. -/
theorem putAll_eq_ok_iff (hdistinct : Field.Distinct (f :: fs)) {rest slots : Slots fs}
    {place : Option f.Value} :
    putAll source (f :: fs) (Document.ofEntries entries) (.none, rest) = .ok (place, slots) ↔
      Fills f source entries place ∧
        putAll source fs (Document.ofEntries entries) rest = .ok slots := by
  constructor
  · intro h
    induction entries generalizing rest with
    | nil =>
      cases h
      exact ⟨.none rfl, rfl⟩
    | cons e entries ih =>
      rw [putAll_cons] at h ⊢
      obtain ⟨slots', hput, h⟩ := bind_eq_ok.1 h
      cases hnames : f.answersTo e.1 with
      | true =>
        rw [put_cons_of_answersTo hnames] at hput
        obtain ⟨value, hvalue, rfl⟩ := map_eq_ok.1 hput
        have hnone := filter_eq_nil_of_putAll h
        rw [putAll_of_none hnone] at h
        obtain ⟨slots', hrest, heq⟩ := map_eq_ok.1 h
        cases heq
        rw [put_of_foreign (hdistinct.foreign hnames)]
        exact ⟨.one (by rw [List.filter_cons, if_pos hnames, hnone]) hvalue, hrest⟩
      | false =>
        rw [put_cons_of_not hnames] at hput
        obtain ⟨rest', hput', rfl⟩ := map_eq_ok.1 hput
        obtain ⟨hfills, hrest⟩ := ih h
        exact ⟨hfills.cons hnames, bind_eq_ok.2 ⟨rest', hput', hrest⟩⟩
  · rintro ⟨hfills, hrest⟩
    cases hfills with
    | none hnone => exact (putAll_of_none hnone _ rest).trans (map_eq_ok.2 ⟨slots, hrest, rfl⟩)
    | one hone hvalue => exact putAll_of_one (fun _ => hdistinct.foreign) hone hvalue hrest

/-- A row is complete when its first field is filled or has a default, and the rest is complete. -/
theorem complete_eq_ok_iff {place : Option f.Value} {slots : Slots fs} {row : Row (f :: fs)} :
    complete (f :: fs) (place, slots) = .ok row ↔
      place.or f.absent = some row.1 ∧ complete fs slots = .ok row.2 := by
  simp only [complete]
  cases place.or f.absent with
  | none =>
    constructor
    · intro h
      cases h
    · rintro ⟨h, -⟩
      cases h
  | some value =>
    rw [bind_eq_ok, Option.some_inj]
    constructor
    · rintro ⟨row', hrow', h⟩
      cases h
      exact ⟨rfl, hrow'⟩
    · rintro ⟨rfl, hrow⟩
      exact ⟨row.2, hrow, rfl⟩

end Slots

namespace Row

/-- A row is read by reading its first field and then the others. -/
theorem read?_cons {row : Row (f :: fs)} : read? source entries (f :: fs) = some row ↔
    f.read? source entries = some row.1 ∧ read? source entries fs = some row.2 := by
  obtain ⟨value, row⟩ := row
  simp [read?, Option.bind_eq_some_iff]

/-- The values of fields can be read if each of them can. -/
theorem isSome_read?_iff : (read? source entries fs).isSome = true ↔
    ∀ f ∈ fs, (f.read? source entries).isSome = true := by
  induction fs with
  | nil => simp [read?]
  | cons f fs ih =>
    rw [List.forall_mem_cons, ← ih]
    constructor
    · intro h
      obtain ⟨row, hrow⟩ := Option.isSome_iff_exists.1 h
      obtain ⟨hvalue, hrest⟩ := read?_cons.1 hrow
      exact ⟨Option.isSome_of_eq_some hvalue, Option.isSome_of_eq_some hrest⟩
    · rintro ⟨hvalue, hrest⟩
      obtain ⟨value, hvalue⟩ := Option.isSome_iff_exists.1 hvalue
      obtain ⟨row, hrest⟩ := Option.isSome_iff_exists.1 hrest
      have hrow : read? source entries (f :: fs) = some (value, row) :=
        read?_cons.2 ⟨hvalue, hrest⟩
      exact Option.isSome_of_eq_some hrow

/-- The places are filled and complete when each field is read by itself. -/
theorem exists_slots_iff (hdistinct : Field.Distinct fs) {row : Row fs} :
    (∃ slots, Slots.putAll source fs (Document.ofEntries entries) (Slots.empty fs) = .ok slots ∧
      slots.complete fs = .ok row) ↔ read? source entries fs = some row := by
  induction fs with
  | nil => exact ⟨fun _ => rfl, fun _ => RowForm.ofNil.read hdistinct trivial source⟩
  | cons f fs ih =>
    rw [read?_cons, Slots.read?_eq_some_iff]
    constructor
    · rintro ⟨⟨place, slots⟩, hput, hcomplete⟩
      obtain ⟨hfills, hrest⟩ := (Slots.putAll_eq_ok_iff hdistinct).1 hput
      obtain ⟨hvalue, hrow⟩ := Slots.complete_eq_ok_iff.1 hcomplete
      exact ⟨⟨place, hfills, hvalue⟩, (ih hdistinct.tail).1 ⟨slots, hrest, hrow⟩⟩
    · rintro ⟨⟨place, hfills, hvalue⟩, hothers⟩
      obtain ⟨slots, hrest, hrow⟩ := (ih hdistinct.tail).2 hothers
      exact ⟨(place, slots), (Slots.putAll_eq_ok_iff hdistinct).2 ⟨hfills, hrest⟩,
        Slots.complete_eq_ok_iff.2 ⟨hvalue, hrow⟩⟩

/-- A record is read from the entries of an object as its fields are, each by itself. -/
theorem ofEntries_eq_ok_iff (hdistinct : Field.Distinct fs) {row : Row fs} :
    ofEntries source fs (Document.ofEntries entries) none = .ok row ↔
      read? source entries fs = some row :=
  bind_eq_ok.trans (exists_slots_iff hdistinct)

end Row

/-- A record is read from a map as its fields are, each by itself, and not at all if one of them
cannot be read. -/
theorem Codec.record_ofMap {α : Type} {name : String} {build : Row fs → α} {take : α → Row fs}
    (hdistinct : Field.Distinct fs) (m : TextMap Json) :
    ((Codec.record name fs build take).ofJson (.ofMap m)).toOption =
      (Row.read? .memory m.entries fs).map build := by
  change ((Row.ofEntries .memory fs (Document.ofEntries m.entries) none).map build).toOption = _
  cases hread : Row.ofEntries .memory fs (Document.ofEntries m.entries) none with
  | ok row =>
    rw [(Row.ofEntries_eq_ok_iff hdistinct).1 hread]
    rfl
  | error error =>
    cases hrow : Row.read? .memory m.entries fs with
    | none => rfl
    | some row =>
      rw [(Row.ofEntries_eq_ok_iff hdistinct).2 hrow] at hread
      cases hread

end DeviceSuite
