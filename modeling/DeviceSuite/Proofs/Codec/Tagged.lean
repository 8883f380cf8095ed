import DeviceSuite.Codec.Tagged
import DeviceSuite.Proofs.Codec.Record

/-!
# Forms of tagged unions

A value of a union is spelled by an object in which the tag of its variant stands once and the
fields of the variant stand as in a record. Which variant that is must be told by the value alone,
so the tags of a union are checked against a function that gives the tag of each value.
-/

namespace DeviceSuite

variable {α : Type}

/-- What makes a variant one of a union: what it takes apart is the value it puts together again,
and the value tells its tag. -/
structure Variant.Lawful (tagOf : α → String) (v : Variant α) : Prop where
  tagOf_eq : ∀ a row, v.take a = some row → tagOf a = v.tag
  build_take : ∀ a row, v.take a = some row → v.build row = a
  take_build : ∀ row, v.take (v.build row) = some row

/-- A variant is lawful if it takes apart what it puts together, and nothing else, and if what it
puts together has its tag. -/
theorem Variant.Lawful.of_build {tagOf : α → String} {v : Variant α}
    (htag : ∀ row, tagOf (v.build row) = v.tag) (htake : ∀ row, v.take (v.build row) = some row)
    (hbuild : ∀ a row, v.take a = some row → v.build row = a) : v.Lawful tagOf where
  tagOf_eq a row h := hbuild a row h ▸ htag row
  build_take := hbuild
  take_build := htake

/-- What makes a list of variants a union: every value is of one of them, they have different tags,
and none has a field under the name of the tag. -/
structure Union (tag : String) (variants : List (Variant α)) (tagOf : α → String) : Prop where
  nodup : (variants.map Variant.tag).Nodup
  cover : ∀ a, (variants.any fun v => (v.take a).isSome) = true
  lawful : ∀ v ∈ variants, v.Lawful tagOf
  distinct : ∀ v ∈ variants, Field.Distinct v.fields
  foreign : ∀ v ∈ variants, Field.Foreign v.fields tag

/-- How the rows of variants are spelled. -/
class inductive VariantForms : List (Variant α) → Type 1
  | nil : VariantForms []
  | cons {v : Variant α} {vs : List (Variant α)} (first : RowForm v.fields)
    (rest : VariantForms vs) : VariantForms (v :: vs)

namespace VariantForms

variable {v : Variant α} {vs : List (Variant α)} {tag : String} {a : α}

instance ofNil : VariantForms ([] : List (Variant α)) := .nil

instance ofCons [first : RowForm v.fields] [rest : VariantForms vs] : VariantForms (v :: vs) :=
  .cons first rest

/-- The tag of a variant that takes the value apart stands once among the entries of an object, and
so do the fields of the variant, as in a record. -/
def Spells (tag : String) (a : α) (entries : List (String × Json)) :
    {vs : List (Variant α)} → VariantForms vs → Prop
  | [], .nil => False
  | v :: _, .cons first rest =>
    (∃ row, v.take a = some row ∧
      (entries.filter fun e => e.1 == tag) = [(tag, .text v.tag)] ∧ first.Spells row entries) ∨
    rest.Spells tag a entries

/-- Whatever a variant takes apart is writable. -/
def Writable (a : α) : {vs : List (Variant α)} → VariantForms vs → Prop
  | [], .nil => True
  | v :: _, .cons first rest =>
    (∀ row, v.take a = some row → first.Writable row) ∧ rest.Writable a

/-- The entries of a value are edited as those of its variant are. -/
def Edit (a : α) (entries entries' : List (String × Json)) :
    {vs : List (Variant α)} → VariantForms vs → Prop
  | [], .nil => True
  | v :: _, .cons first rest =>
    (∀ row, v.take a = some row → first.Edit row entries entries') ∧ rest.Edit a entries entries'

/-- An edit that leaves the tag alone leaves the entries spelling the same value. -/
theorem Spells.edit {F : VariantForms vs} (hdistinct : ∀ v ∈ vs, Field.Distinct v.fields)
    {entries entries' : List (String × Json)} (h : F.Spells tag a entries)
    (htag : (entries'.filter fun e => e.1 == tag) = entries.filter fun e => e.1 == tag)
    (hedit : F.Edit a entries entries') : F.Spells tag a entries' := by
  induction F with
  | nil => exact h.elim
  | cons first rest ih =>
    obtain ⟨hfirst, hrest⟩ := hedit
    obtain ⟨hv, hvs⟩ := List.forall_mem_cons.1 hdistinct
    rcases h with ⟨row, htake, hone, hrow⟩ | h
    · exact .inl ⟨row, htake, htag.trans hone, hrow.edit hv (hfirst row htake)⟩
    · exact .inr (ih hvs h hrest)

/-- Who is spelled is spelled as one of the variants. -/
theorem Spells.exists {F : VariantForms vs} {entries : List (String × Json)}
    (h : F.Spells tag a entries) : ∃ v ∈ vs, ∃ (first : RowForm v.fields) (row : Row v.fields),
      v.take a = some row ∧ (entries.filter fun e => e.1 == tag) = [(tag, .text v.tag)] ∧
      first.Spells row entries := by
  induction F with
  | nil => exact h.elim
  | @cons v vs first rest ih =>
    rcases h with ⟨row, htake, htag, hrow⟩ | h
    · exact ⟨v, List.mem_cons_self, first, row, htake, htag, hrow⟩
    · obtain ⟨v', hv', hexists⟩ := ih h
      exact ⟨v', List.mem_cons_of_mem _ hv', hexists⟩

end VariantForms

/-- The content of a document that was spelt out has no fault. -/
theorem checkContent_ofJson (j : Json) : checkContent (.ofJson j) = .ok () := by
  obtain ⟨j', h⟩ := Document.toJson_ofJson_isOk j
  rw [checkContent, h]
  rfl

/-- A name is decoded to the choice that is listed under it. -/
theorem decodeName_eq_ok {choices : List (String × α)} {name : String} {value : α} :
    decodeName choices name = .ok value ↔ choices.lookup name = some value := by
  rw [decodeName]
  cases choices.lookup name <;> simp

section SplitTag

variable {tag : String} {readers : ContentReaders α} {entries : List (String × Json)}

/-- Entries without a tag are all buffered. -/
theorem splitTag_of_none (h : (entries.filter fun e => e.1 == tag) = [])
    (found : Option (Document → Except DecodeError α)) :
    splitTag tag readers found (Document.ofEntries entries) =
      .ok (found, Document.ofEntries entries) := by
  induction entries with
  | nil => rfl
  | cons e rest ih =>
    have hne : (e.1 == tag) = false := by
      have := List.filter_eq_nil_iff.1 h e List.mem_cons_self
      simpa using this
    rw [List.filter_cons, hne] at h
    rw [Document.ofEntries, splitTag]
    change (if e.1 = tag then _ else _) = _
    rw [if_neg (beq_eq_false_iff_ne.1 hne), checkContent_ofJson, ih h]
    rfl

/-- The tag is picked out, and the other entries are buffered. -/
theorem splitTag_of_tag {j : Json} (h : (entries.filter fun e => e.1 == tag) = [(tag, j)]) :
    splitTag tag readers none (Document.ofEntries entries) =
      (decodeNamed readers (.ofJson j)).map fun reader =>
        (some reader, Document.ofEntries (entries.filter fun e => e.1 != tag)) := by
  induction entries with
  | nil => cases h
  | cons e rest ih =>
    rw [Document.ofEntries, splitTag]
    change (if e.1 = tag then _ else _) = _
    by_cases heq : e.1 = tag
    · rw [List.filter_cons, if_pos (beq_iff_eq.2 heq)] at h
      obtain ⟨rfl, hnone⟩ := List.cons.inj h
      have hrest : (rest.filter fun e => e.1 != tag) = rest :=
        List.filter_eq_self.2 fun e he => by
          have := List.filter_eq_nil_iff.1 hnone e he
          simpa using this
      have hcontent : (((tag, j) :: rest).filter fun e => e.1 != tag) = rest := by
        rw [List.filter_cons, if_neg (by simp), hrest]
      rw [if_pos rfl, hcontent]
      cases hname : decodeNamed readers (.ofJson j) with
      | error error => rfl
      | ok reader => exact splitTag_of_none hnone (some reader)
    · rw [List.filter_cons, if_neg (by simpa using heq)] at h
      rw [if_neg heq, checkContent_ofJson, ih h, List.filter_cons, if_pos (by simpa using heq)]
      cases decodeNamed readers (.ofJson j) <;> rfl

/-- An object with one tag is split into the reader of the tag and all other entries. -/
theorem splitTag_of_one {name : String} {reader : Document → Except DecodeError α}
    (h : (entries.filter fun e => e.1 == tag) = [(tag, .text name)])
    (hreader : readers.lookup name = some reader) :
    splitTag tag readers none (Document.ofEntries entries) =
      .ok (some reader, Document.ofEntries (entries.filter fun e => e.1 != tag)) := by
  have hname : decodeNamed readers (.ofJson (.text name)) = .ok reader := decodeName_eq_ok.2 hreader
  rw [splitTag_of_tag h, hname]
  rfl

/-- What is decoded by name is listed under some name. -/
theorem decodeNamed_eq_ok {β : Type} {choices : List (String × β)} {d : Document} {value : β}
    (h : decodeNamed choices d = .ok value) : ∃ name, choices.lookup name = some value := by
  cases d with
  | text name => exact ⟨name, decodeName_eq_ok.1 h⟩
  | _ => cases h

/-- What has been read from the entries of a union: the reader of a tag, and the other entries. -/
theorem splitTag_eq_ok {entries content : List (Document × Document)}
    {found found' : Option (Document → Except DecodeError α)}
    (h : splitTag tag readers found entries = .ok (found', content)) :
    (∀ e ∈ content, e ∈ entries) ∧
      (∀ reader ∈ found', reader ∈ found ∨ ∃ name, readers.lookup name = some reader) ∧
      ∀ reader ∈ found, found' = some reader := by
  induction entries generalizing found content with
  | nil =>
    cases h
    exact ⟨fun _ => id, fun _ => .inl, fun _ => id⟩
  | cons e rest ih =>
    rw [splitTag] at h
    obtain ⟨name, -, h⟩ := bind_eq_ok.1 h
    split at h
    · split at h
      · cases h
      · next hnone =>
        obtain ⟨reader, hreader, h⟩ := bind_eq_ok.1 h
        obtain ⟨hcontent, hfound, -⟩ := ih h
        refine ⟨fun e he => List.mem_cons_of_mem _ (hcontent e he), fun other hother => .inr ?_,
          fun other hother => absurd (Option.isSome_of_mem hother) hnone⟩
        rcases hfound other hother with hsome | hlookup
        · cases hsome
          exact decodeNamed_eq_ok hreader
        · exact hlookup
    · obtain ⟨-, -, h⟩ := bind_eq_ok.1 h
      obtain ⟨⟨found₁, content₁⟩, hsplit, h⟩ := bind_eq_ok.1 h
      cases h
      obtain ⟨hcontent, hfound⟩ := ih hsplit
      refine ⟨List.forall_mem_cons.2 ⟨List.mem_cons_self, fun e he => ?_⟩, hfound⟩
      exact List.mem_cons_of_mem _ (hcontent e he)

end SplitTag

namespace Variant

/-- The reader of the variants finds each by its tag. -/
theorem lookup_decode {variants : List (Variant α)} (hnodup : (variants.map tag).Nodup)
    {v : Variant α} (hv : v ∈ variants) :
    (variants.map fun v => (v.tag, v.decode)).lookup v.tag = some v.decode := by
  induction variants with
  | nil => cases hv
  | cons first rest ih =>
    obtain ⟨hout, hrest⟩ := List.nodup_cons.1 hnodup
    rw [List.map_cons, List.lookup_cons]
    rcases List.mem_cons.1 hv with rfl | hv
    · rw [beq_self_eq_true]
    · have hne : v.tag ≠ first.tag := fun heq => hout (heq ▸ List.mem_map_of_mem hv)
      rw [beq_eq_false_iff_ne.2 hne]
      exact ih hrest hv

/-- A reader that is found is that of a variant. -/
theorem of_lookup_decode {variants : List (Variant α)} {name : String}
    {reader : Document → Except DecodeError α}
    (h : (variants.map fun v => (v.tag, v.decode)).lookup name = some reader) :
    ∃ v ∈ variants, v.tag = name ∧ v.decode = reader := by
  induction variants with
  | nil => cases h
  | cons first rest ih =>
    rw [List.map_cons, List.lookup_cons] at h
    split at h
    · next heq =>
      exact ⟨first, List.mem_cons_self, (eq_of_beq heq).symm, Option.some.inj h⟩
    · obtain ⟨v, hv, hv'⟩ := ih h
      exact ⟨v, List.mem_cons_of_mem _ hv, hv'⟩

/-- What is read as a variant is put together from a row. -/
theorem decode_eq_ok {v : Variant α} {d : Document} {a : α} (h : v.decode d = .ok a) :
    ∃ row, Row.decode v.record v.fields .buffer d = .ok row ∧ v.build row = a := by
  cases d with
  | list items ending =>
    change (if v.hasListForm then _ else _) = _ at h
    split at h
    · exact map_eq_ok.1 h
    · exact absurd h Codec.reject_ne_ok
  | _ => exact map_eq_ok.1 h

/-- A variant is read from an object in which its fields stand. -/
theorem decode_object {v : Variant α} {entries : List (String × Json)} {row : Row v.fields}
    (F : RowForm v.fields) (hdistinct : Field.Distinct v.fields) (h : F.Spells row entries) :
    v.decode (.object (Document.ofEntries entries) none) = .ok (v.build row) :=
  map_eq_ok.2 ⟨row, F.decode hdistinct h v.record .buffer, rfl⟩

end Variant

/-- The codec writes a value with the tag of its variant in front of the fields. -/
theorem VariantForms.encodeTagged {vs : List (Variant α)} (F : VariantForms vs) {tag : String}
    {a : α} (hcover : (vs.any fun v => (v.take a).isSome) = true)
    (hdistinct : ∀ v ∈ vs, Field.Distinct v.fields)
    (hforeign : ∀ v ∈ vs, Field.Foreign v.fields tag)
    (h : F.Writable a) :
    ∃ entries, encodeTagged tag vs a = .object entries ∧ F.Spells tag a entries := by
  induction F with
  | nil => cases hcover
  | @cons v vs first rest ih =>
    obtain ⟨hfirst, hrest⟩ := h
    obtain ⟨hv, hdistinct⟩ := List.forall_mem_cons.1 hdistinct
    obtain ⟨hvforeign, hforeign⟩ := List.forall_mem_cons.1 hforeign
    cases htake : v.take a with
    | some row =>
      refine ⟨(tag, .text v.tag) :: Row.entries v.fields row, ?_, .inl ⟨row, htake, ?_, ?_⟩⟩
      · rw [DeviceSuite.encodeTagged, List.findSome?_cons, Variant.entries?, htake]
        rfl
      · have hnone : ((Row.entries v.fields row).filter fun e => e.1 == tag) = [] :=
          List.filter_eq_nil_iff.2 fun e he heq => by
            obtain ⟨f, hf, hname⟩ := RowForm.mem_entries he
            have hanswers := hvforeign f hf
            rw [← eq_of_beq heq, hname, f.answersTo_name] at hanswers
            cases hanswers
        rw [List.filter_cons, if_pos (beq_self_eq_true tag), hnone]
      · exact (first.write hv (hfirst row htake)).cons hvforeign
    | none =>
      have hlater : (vs.any fun v => (v.take a).isSome) = true := by
        rwa [List.any_cons, htake, Option.isSome_none, Bool.false_or] at hcover
      obtain ⟨entries, hencode, hspells⟩ := ih hlater hdistinct hforeign hrest
      refine ⟨entries, ?_, .inr hspells⟩
      rw [← hencode, DeviceSuite.encodeTagged, DeviceSuite.encodeTagged, List.findSome?_cons,
        Variant.entries?, htake]
      rfl

/-- The form of a union. -/
@[reducible] def Form.tagged {name tag : String} {variants : List (Variant α)} {tagOf : α → String}
    [F : VariantForms variants] (U : Union tag variants tagOf) :
    Form (.tagged name tag variants) where
  Spells a j := ∃ entries, j = .object entries ∧ F.Spells tag a entries
  Writable a := F.Writable a
  Edit a j j' := ∃ entries entries', j = .object entries ∧ j' = .object entries' ∧
    (entries'.filter fun e => e.1 == tag) = (entries.filter fun e => e.1 == tag) ∧
      F.Edit a entries entries'
  read := by
    rintro a _ ⟨entries, rfl, h⟩ source
    obtain ⟨v, hv, first, row, htake, htag, hrow⟩ := h.exists
    have hreader := Variant.lookup_decode U.nodup hv
    -- The fields of the variant stand among the buffered entries as well.
    have hcontent : first.Spells row (entries.filter fun e => e.1 != tag) := by
      refine hrow.congr fun f hf => ?_
      rw [List.filter_filter]
      refine List.filter_congr fun e _ => ?_
      cases hanswers : f.answersTo e.1 with
      | false => rfl
      | true =>
        have hne : e.1 ≠ tag := fun heq => by
          have := U.foreign v hv f hf
          rw [← heq, hanswers] at this
          cases this
        simpa using hne
    change (splitTag tag _ none (Document.ofEntries entries) >>= _) = _
    rw [splitTag_of_one htag hreader]
    refine (Variant.decode_object first (U.distinct v hv) hcontent).trans ?_
    rw [(U.lawful v hv).build_take a row htake]
  write {a} h := F.encodeTagged (U.cover a) U.distinct U.foreign h
  edit := by
    rintro a _ _ ⟨entries, rfl, h⟩ ⟨_, entries', heq, rfl, htag, hedit⟩
    cases heq
    exact ⟨entries', rfl, h.edit U.distinct htag hedit⟩

namespace VariantForms

/-- All variants read only what they can write. -/
class inductive Retains : {vs : List (Variant α)} → VariantForms vs → Prop
  | nil : Retains .nil
  | cons {v : Variant α} {vs : List (Variant α)} {first : RowForm v.fields} {rest : VariantForms vs}
    (hfirst : first.Retains) (hrest : Retains rest) : Retains (.cons first rest)

instance : Retains (ofNil (α := α)) := .nil

instance {v : Variant α} {vs : List (Variant α)} [first : RowForm v.fields]
    [rest : VariantForms vs] [hfirst : first.Retains] [hrest : rest.Retains] :
    Retains (@ofCons _ v vs first rest) :=
  .cons hfirst hrest

/-- Nothing is required of the variants that do not take a value apart. -/
theorem writable_of_none {vs : List (Variant α)} (F : VariantForms vs) {a : α}
    (h : ∀ v ∈ vs, v.take a = none) : F.Writable a := by
  induction F with
  | nil => trivial
  | cons first rest ih =>
    obtain ⟨hv, hvs⟩ := List.forall_mem_cons.1 h
    exact ⟨fun row hrow => (nomatch hv.symm.trans hrow), ih hvs⟩

/-- What a variant puts together is writable if the row is: no other variant takes it apart. -/
theorem Retains.writable {vs : List (Variant α)} {F : VariantForms vs} (hF : F.Retains)
    {tagOf : α → String} (hnodup : (vs.map Variant.tag).Nodup)
    (hlawful : ∀ v ∈ vs, v.Lawful tagOf) {v : Variant α} (hv : v ∈ vs) {row : Row v.fields}
    (hrow : ∀ R : RowForm v.fields, R.Retains → R.Writable row) : F.Writable (v.build row) := by
  have hown := (hlawful v hv).tagOf_eq _ row ((hlawful v hv).take_build row)
  induction hF with
  | nil => trivial
  | @cons first vs form rest hform _ ih =>
    obtain ⟨hout, hnodup⟩ := List.nodup_cons.1 hnodup
    obtain ⟨hfirst, hlater⟩ := List.forall_mem_cons.1 hlawful
    rcases List.mem_cons.1 hv with rfl | hv
    · refine ⟨fun row' hrow' => ?_, rest.writable_of_none fun w hw => ?_⟩
      · obtain rfl := Option.some.inj ((hfirst.take_build row).symm.trans hrow')
        exact hrow form hform
      · rw [Option.eq_none_iff_forall_ne_some]
        intro row' hrow'
        have htag := hown.symm.trans ((hlater w hw).tagOf_eq _ row' hrow')
        exact hout (htag ▸ List.mem_map_of_mem hw)
    · refine ⟨fun row' hrow' => ?_, ih hnodup hlater hv⟩
      have htag := hown.symm.trans (hfirst.tagOf_eq _ row' hrow')
      exact absurd (htag ▸ List.mem_map_of_mem hv) hout

end VariantForms

open Document in
/-- A union of such variants reads only what it can write. -/
theorem Codec.Retains.tagged {name tag : String} {variants : List (Variant α)} {tagOf : α → String}
    {form : Form (.tagged name tag variants)} [F : VariantForms variants] [hF : F.Retains]
    (U : Union tag variants tagOf)
    (hwritable : ∀ a, F.Writable a → Form.Writable (.tagged name tag variants) a) :
    (Codec.tagged name tag variants).Retains where
  writable {source d a} hd h := by
    have hread : ∀ (name : String) (reader : Document → Except DecodeError α) (content : Document),
        (variants.map fun v => (v.tag, v.decode)).lookup name = some reader → content.Fits →
        reader content = .ok a → F.Writable a := by
      intro name reader content hlookup hfits hreader
      obtain ⟨v, hv, -, rfl⟩ := Variant.of_lookup_decode hlookup
      obtain ⟨row, hrow, rfl⟩ := Variant.decode_eq_ok hreader
      exact hF.writable U.nodup U.lawful hv fun R hR => hR.decode hfits hrow
    apply hwritable
    cases d with
    | object entries ending =>
      obtain ⟨⟨found, content⟩, hsplit, h⟩ := bind_eq_ok.1 h
      obtain ⟨found', hending, h⟩ := bind_eq_ok.1 h
      obtain ⟨-, rfl⟩ := Document.atEnd_eq_ok (liftFault_eq_ok hending)
      obtain ⟨hcontent, hfound, -⟩ := splitTag_eq_ok hsplit
      cases found with
      | none => cases h
      | some reader =>
        obtain ⟨tagName, hlookup⟩ := (hfound reader rfl).resolve_left nofun
        have hfits : FitsEntries content := fitsEntries_iff.2 fun e he =>
          fitsEntries_iff.1 hd e (hcontent e he)
        exact hread tagName reader (.object content none) hlookup hfits h
    | list items ending =>
      cases items with
      | nil =>
        obtain ⟨-, -, h⟩ := bind_eq_ok.1 h
        cases h
      | cons first rest =>
        obtain ⟨reader, hreader, h⟩ := bind_eq_ok.1 h
        obtain ⟨-, -, h⟩ := bind_eq_ok.1 h
        obtain ⟨tagName, hlookup⟩ := decodeNamed_eq_ok hreader
        exact hread tagName reader (.list rest none) hlookup hd.2 h
    | _ => cases h

namespace Union

variable {name tag : String} {variants : List (Variant α)} {tagOf : α → String}

/-- What the codec writes for a value begins with its tag. -/
theorem encode_eq (U : Union tag variants tagOf) (name : String) (a : α) :
    ∃ v ∈ variants, v.tag = tagOf a ∧ ∃ entries, (Codec.tagged name tag variants).encode a =
      .object ((tag, .text v.tag) :: entries) := by
  have hsome : (variants.findSome? fun v =>
      (v.entries? a).map fun entries => (v.tag, entries)).isSome = true := by
    obtain ⟨v, hv, htake⟩ := List.any_eq_true.1 (U.cover a)
    exact List.findSome?_isSome_iff.2 ⟨v, hv, by simpa [Variant.entries?] using htake⟩
  obtain ⟨⟨t, entries⟩, hfound⟩ := Option.isSome_iff_exists.1 hsome
  obtain ⟨v, hv, hentries⟩ := List.exists_of_findSome?_eq_some hfound
  obtain ⟨written, hwritten, heq⟩ := Option.map_eq_some_iff.1 hentries
  obtain ⟨row, htake, -⟩ := Option.map_eq_some_iff.1 hwritten
  cases heq
  refine ⟨v, hv, ((U.lawful v hv).tagOf_eq a row htake).symm, entries, ?_⟩
  change encodeTagged tag variants a = _
  rw [encodeTagged, hfound]

/-- The codec writes the tag of a value. -/
theorem get?_encode (U : Union tag variants tagOf) (a : α) :
    ((Codec.tagged name tag variants).encode a).get? tag = some (.text (tagOf a)) := by
  obtain ⟨v, -, htag, entries, hencode⟩ := U.encode_eq name a
  rw [hencode, ← htag, Json.get?, List.lookup_cons, beq_self_eq_true]

/-- What is read as a variant has its tag. -/
theorem tagOf_of_variant (U : Union tag variants tagOf) {v : Variant α} (hv : v ∈ variants)
    {d : Document} {a : α} (h : v.decode d = .ok a) : tagOf a = v.tag := by
  obtain ⟨row, -, rfl⟩ := Variant.decode_eq_ok h
  have hlawful := U.lawful v hv
  exact hlawful.tagOf_eq _ row (hlawful.take_build row)

/-- Whatever becomes of its fields, what is written for a value is read as a value with the same
tag. -/
theorem tagOf_of_decode (U : Union tag variants tagOf) {a b : α}
    (h : (Codec.tagged name tag variants).ofJson ((Codec.tagged name tag variants).encode a) =
      .ok b) : tagOf b = tagOf a := by
  obtain ⟨v, hv, htag, entries, hencode⟩ := U.encode_eq name a
  rw [hencode] at h
  obtain ⟨⟨found, content⟩, hsplit, h⟩ := bind_eq_ok.1 h
  obtain ⟨found', hending, h⟩ := bind_eq_ok.1 h
  obtain ⟨-, rfl⟩ := Document.atEnd_eq_ok (Codec.liftFault_eq_ok hending)
  have hname : decodeNamed (variants.map fun v => (v.tag, v.decode)) (.ofJson (.text v.tag)) =
      .ok v.decode := decodeName_eq_ok.2 (Variant.lookup_decode U.nodup hv)
  rw [Document.ofEntries, splitTag] at hsplit
  change (if tag = tag then _ else _) = _ at hsplit
  rw [if_pos rfl, hname] at hsplit
  obtain ⟨-, -, hfound⟩ := splitTag_eq_ok hsplit
  rw [hfound _ rfl] at h
  exact (U.tagOf_of_variant hv h).trans htag

end Union

end DeviceSuite
