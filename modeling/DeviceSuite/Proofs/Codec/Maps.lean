import DeviceSuite.Proofs.Codec.Fields
import DeviceSuite.Proofs.Codec.Tagged
import Mathlib.Data.List.Sort

/-!
# Unions read from maps

A union is read from a map by look-ups. What stands under the tag tells the variant, and the fields
of the variant are read from what stands under their names. An entry under any other key changes
neither the value that is read nor the error that is reported.
-/

namespace DeviceSuite

namespace TextMap

variable {α : Type} {m m' : TextMap α}

/-- A map has an entry when looking up its key finds its value. -/
theorem mem_entries_iff {e : String × α} : e ∈ m.entries ↔ m.get? e.1 = some e.2 := by
  have hmem : e ∈ m.entries ↔ e ∈ m.entries.filter fun e' => e'.1 == e.1 := by simp
  rw [hmem, m.filter_key, List.mem_map]
  constructor
  · rintro ⟨value, hvalue, heq⟩
    rw [← heq]
    exact Option.mem_toList.1 hvalue
  · exact fun h => ⟨e.2, Option.mem_toList.2 h, rfl⟩

/-- Maps in which the same stands under some keys have the same entries under these. -/
theorem filter_congr {p : String → Bool} (h : ∀ key, p key = true → m.get? key = m'.get? key) :
    (m.entries.filter fun e => p e.1) = m'.entries.filter fun e => p e.1 := by
  have hirrefl : Std.Irrefl fun a b : String × α => a.1 < b.1 := ⟨fun a => String.lt_irrefl a.1⟩
  have hantisymm : Std.Antisymm fun a b : String × α => a.1 < b.1 :=
    ⟨fun a b hab hba => absurd hba (String.lt_asymm hab)⟩
  refine List.Pairwise.eq_of_mem_iff (m.increasing.filter _) (m'.increasing.filter _) fun e => ?_
  rw [List.mem_filter, List.mem_filter, mem_entries_iff, mem_entries_iff]
  exact and_congr_left fun hp => by rw [h e.1 hp]

end TextMap

/-- The first of the entries with a key is the one that a look-up finds. -/
theorem lookup_eq_head? {α : Type} (entries : List (String × α)) (key : String) :
    entries.lookup key = (entries.filter fun e => e.1 == key).head?.map (·.2) := by
  induction entries with
  | nil => rfl
  | cons e rest ih =>
    rw [lookup_cons_ite, List.filter_cons]
    by_cases hkey : key = e.1
    · rw [if_pos hkey, if_pos (beq_iff_eq.2 hkey.symm)]
      rfl
    · rw [if_neg hkey, if_neg (by simpa using Ne.symm hkey), ih]

section

variable {fs : List Field} {source : Source} {p : String → Bool}

/-- Entries that name none of the fields do not matter. -/
theorem Slots.putAll_filter (hforeign : ∀ key, p key = false → Field.Foreign fs key)
    (entries : List (String × Json)) (slots : Slots fs) :
    putAll source fs (Document.ofEntries (entries.filter fun e => p e.1)) slots =
      putAll source fs (Document.ofEntries entries) slots := by
  induction entries generalizing slots with
  | nil => rfl
  | cons e rest ih =>
    rw [List.filter_cons, putAll_cons]
    split
    · rw [putAll_cons]
      exact congrArg _ (funext ih)
    · next hkey =>
      rw [put_of_foreign (hforeign e.1 (Bool.eq_false_iff.2 hkey)), ih]
      rfl

/-- Entries under keys that no field answers to do not matter to a row. -/
theorem Row.ofEntries_filter (hforeign : ∀ key, p key = false → Field.Foreign fs key)
    (entries : List (String × Json)) :
    ofEntries source fs (Document.ofEntries (entries.filter fun e => p e.1)) none =
      ofEntries source fs (Document.ofEntries entries) none := by
  rw [ofEntries, Slots.putAll_filter hforeign, ofEntries]

/-- A record is read from maps that agree on the names of its fields as the same value, or the same
error is reported. -/
theorem Codec.record_ofMap_congr {α : Type} {name : String} {build : Row fs → α}
    {take : α → Row fs} (hforeign : ∀ key, p key = false → Field.Foreign fs key)
    {m m' : TextMap Json} (h : ∀ key, p key = true → m.get? key = m'.get? key) :
    (Codec.record name fs build take).ofJson (.ofMap m) =
      (Codec.record name fs build take).ofJson (.ofMap m') := by
  change (Row.ofEntries .memory fs (Document.ofEntries m.entries) none).map build =
    (Row.ofEntries .memory fs (Document.ofEntries m'.entries) none).map build
  rw [← Row.ofEntries_filter hforeign, TextMap.filter_congr h, Row.ofEntries_filter hforeign]

end

/-- A field with one name stands in a map in which the same stands under that name. -/
theorem FieldForm.Stands.of_lookup {f : Field} [FieldForm f] {v : f.Value}
    {entries : List (String × Json)} (h : Stands f v entries) (hname : f.aliases = [])
    {m : TextMap Json} (hsame : m.get? f.name = entries.lookup f.name) :
    Stands f v m.entries := by
  have hanswers : ∀ entries : List (String × Json),
      (entries.filter fun e => f.answersTo e.1) = entries.filter fun e => e.1 == f.name := by
    simp [Field.answersTo_of_unaliased hname]
  have hfilter := (hanswers m.entries).trans (m.filter_key f.name)
  rw [hsame, lookup_eq_head?, ← hanswers] at hfilter
  cases h with
  | absent hnone hv =>
    rw [hnone] at hfilter
    exact .absent hfilter hv
  | present hone hv =>
    rw [hone] at hfilter
    exact .present hfilter hv

/-- A row is spelt by any map that agrees with its entries on the names of the fields. -/
theorem RowForm.Spells.of_lookup {fs : List Field} {F : RowForm fs} {row : Row fs}
    {entries : List (String × Json)} (h : F.Spells row entries)
    (hnames : ∀ f ∈ fs, f.aliases = []) {m : TextMap Json}
    (hsame : ∀ f ∈ fs, m.get? f.name = entries.lookup f.name) : F.Spells row m.entries := by
  induction F with
  | nil => trivial
  | cons first rest ih =>
    obtain ⟨v, row⟩ := row
    obtain ⟨hfirst, hrest⟩ := h
    obtain ⟨hname, hnames⟩ := List.forall_mem_cons.1 hnames
    obtain ⟨hkey, hsame⟩ := List.forall_mem_cons.1 hsame
    exact ⟨hfirst.of_lookup hname hkey, ih hrest hnames hsame⟩

section

variable {α : Type} {name tag : String} {variants : List (Variant α)} {tagOf : α → String}
  {v : Variant α}

/-- A union is read from a map by what stands under the tag, which tells the reader of the rest. -/
theorem Codec.tagged_ofMap (m : TextMap Json) :
    (Codec.tagged name tag variants).ofJson (.ofMap m) = match m.get? tag with
      | none => .error (.missingField tag)
      | some j => decodeNamed (variants.map fun v => (v.tag, v.decode)) (.ofJson j) >>= fun read =>
        read (.object (Document.ofEntries (m.entries.filter fun e => e.1 != tag)) none) := by
  change (splitTag tag _ none (Document.ofEntries m.entries) >>= _) = _
  have htag := m.filter_key tag
  cases hget : m.get? tag with
  | none =>
    rw [hget] at htag
    rw [splitTag_of_none htag]
    rfl
  | some j =>
    rw [hget] at htag
    rw [splitTag_of_tag htag]
    dsimp only
    cases decodeNamed (variants.map fun v => (v.tag, v.decode)) (.ofJson j) <;> rfl

/-- A variant decodes the content of an object as the row of its fields. -/
theorem Variant.decode_content (v : Variant α) (entries : List (String × Json)) :
    v.decode (.object (Document.ofEntries entries) none) =
      (Row.ofEntries .buffer v.fields (Document.ofEntries entries) none).map v.build := rfl

namespace Union

/-- The tag is none of the fields, so it does not matter whether it is picked out. -/
theorem decode_untagged (U : Union tag variants tagOf) (hv : v ∈ variants)
    (entries : List (String × Json)) :
    v.decode (.object (Document.ofEntries (entries.filter fun e => e.1 != tag)) none) =
      (Row.ofEntries .buffer v.fields (Document.ofEntries entries) none).map v.build := by
  have hforeign : ∀ key, (key != tag) = false → Field.Foreign v.fields key := fun key hkey =>
    bne_eq_false_iff_eq.1 hkey ▸ U.foreign v hv
  rw [Variant.decode_content, Row.ofEntries_filter hforeign]

/-- Where the tag of a variant stands, the entries of the map are read as the variant's record. -/
theorem ofMap_eq (U : Union tag variants tagOf) (hv : v ∈ variants) {m : TextMap Json}
    (htag : m.get? tag = some (.text v.tag)) :
    (Codec.tagged name tag variants).ofJson (.ofMap m) =
      (Row.ofEntries .buffer v.fields (Document.ofEntries m.entries) none).map v.build := by
  have hname : decodeNamed (variants.map fun v => (v.tag, v.decode)) (.ofJson (.text v.tag)) =
      .ok v.decode := decodeName_eq_ok.2 (Variant.lookup_decode U.nodup hv)
  rw [Codec.tagged_ofMap, htag, ← U.decode_untagged hv]
  simp only [hname]
  rfl

/-- What is read from a map has the tag that stands there. -/
theorem get?_tag_of_ofMap (U : Union tag variants tagOf) {m : TextMap Json} {a : α}
    (h : (Codec.tagged name tag variants).ofJson (.ofMap m) = .ok a) :
    m.get? tag = some (.text (tagOf a)) := by
  rw [Codec.tagged_ofMap] at h
  cases hget : m.get? tag with
  | none =>
    rw [hget] at h
    cases h
  | some j =>
    rw [hget] at h
    obtain ⟨reader, hreader, hread⟩ := bind_eq_ok.1 h
    cases j with
    | text s =>
      obtain ⟨v, hv, rfl, rfl⟩ := Variant.of_lookup_decode (decodeName_eq_ok.1 hreader)
      rw [U.tagOf_of_variant hv hread]
    | _ => cases hreader

/-- Entries that name neither the tag nor a field of any variant do not matter: from maps that
differ in such entries only, the same value is read, or the same error is reported. -/
theorem ofMap_congr (U : Union tag variants tagOf) {p : String → Bool} (htag : p tag = true)
    (hforeign : ∀ v ∈ variants, ∀ key, p key = false → Field.Foreign v.fields key)
    {m m' : TextMap Json} (h : ∀ key, p key = true → m.get? key = m'.get? key) :
    (Codec.tagged name tag variants).ofJson (.ofMap m) =
      (Codec.tagged name tag variants).ofJson (.ofMap m') := by
  rw [Codec.tagged_ofMap, Codec.tagged_ofMap, h tag htag]
  cases m'.get? tag with
  | none => rfl
  | some j =>
    cases hreader : decodeNamed (variants.map fun v => (v.tag, v.decode)) (.ofJson j) with
    | error e =>
      simp only [hreader]
      rfl
    | ok reader =>
      obtain ⟨_, hlookup⟩ := decodeNamed_eq_ok hreader
      obtain ⟨v, hv, -, rfl⟩ := Variant.of_lookup_decode hlookup
      simp only [hreader]
      refine (U.decode_untagged hv m.entries).trans (Eq.trans ?_ (U.decode_untagged hv _).symm)
      rw [← Row.ofEntries_filter (hforeign v hv), TextMap.filter_congr h,
        Row.ofEntries_filter (hforeign v hv)]

/-- A value is read from a map if its variant is told there by the tag, and the fields stand there
as among entries that spell them. -/
theorem ofMap_of_spells (U : Union tag variants tagOf) (hv : v ∈ variants) {m : TextMap Json}
    (htag : m.get? tag = some (.text v.tag)) {F : RowForm v.fields} {row : Row v.fields}
    (h : F.Spells row m.entries) :
    (Codec.tagged name tag variants).ofJson (.ofMap m) = .ok (v.build row) := by
  rw [U.ofMap_eq hv htag]
  exact Variant.decode_object F (U.distinct v hv) h

end Union

end

end DeviceSuite
