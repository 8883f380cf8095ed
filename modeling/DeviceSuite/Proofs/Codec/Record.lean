import DeviceSuite.Codec.Record
import DeviceSuite.Proofs.Codec.Form

/-!
# Forms of records

A record is spelled by an object in which each of its fields stands, under any of its names, or does
not stand because it has the value that it has when it is absent. Other keys and the order of all
keys do not matter. Two fields must not answer to one key, or an entry would be missed.
-/

namespace DeviceSuite

/-- How the values of a field are spelled. A writable value is spelled by what the field writes, and
it writes nothing but for the value that it has when it is absent. -/
class FieldForm (f : Field) where
  Spells : f.Value → Json → Prop
  Writable : f.Value → Prop
  Edit : f.Value → Json → Json → Prop
  read {v : f.Value} {j : Json} (h : Spells v j) (source : Source) :
    f.decode source (.ofJson j) = .ok v
  write {v : f.Value} (h : Writable v) : ∀ j ∈ f.encode v, Spells v j
  leaveOut {v : f.Value} (h : Writable v) : f.encode v = none → f.absent = some v
  edit {v : f.Value} {j j' : Json} (h : Spells v j) (hedit : Edit v j j') : Spells v j'

namespace FieldForm

variable {α : Type} {c : Codec α} [Form c] {name : String}

/-- A field that is always written, whether it may be absent or not. -/
instance written {aliases : List String} {absent : Option α} :
    FieldForm ⟨α, name, aliases, absent, c.decode, fun value => some (c.encode value)⟩ where
  Spells := Form.Spells c
  Writable := Form.Writable c
  Edit := Form.Edit c
  read := Form.read
  write h _ hj := Option.some.inj hj ▸ Form.write h
  leaveOut _ := nofun
  edit := Form.edit

instance optional [c.RejectsNull] : FieldForm (.optional name c) where
  Spells v j := ∃ a, v = some a ∧ Form.Spells c a j
  Writable v := ∀ a ∈ v, Form.Writable c a
  Edit v j j' := ∃ a, v = some a ∧ Form.Edit c a j j'
  read := by
    rintro _ j ⟨a, rfl, h⟩ source
    have hne := Codec.RejectsNull.ofJson_ne_null h
    have hread := Form.read h source
    simp only [Field.optional]
    rw [hread]
    rfl
  write := by
    rintro v h j hj
    obtain ⟨a, rfl, rfl⟩ := Option.map_eq_some_iff.1 hj
    exact ⟨a, rfl, Form.write (h a rfl)⟩
  leaveOut _ hnone := congrArg some (Option.map_eq_none_iff.1 hnone).symm
  edit := by
    rintro _ j j' ⟨a, rfl, h⟩ ⟨_, heq, hedit⟩
    cases heq
    exact ⟨a, rfl, Form.edit h hedit⟩

end FieldForm

namespace Field

/-- The keys that a field answers to. -/
def keys (f : Field) : List String := f.name :: f.aliases

/-- No two fields answer to one key. -/
def Distinct (fs : List Field) : Prop := (fs.flatMap keys).Nodup

instance (fs : List Field) : Decidable (Distinct fs) := inferInstanceAs (Decidable (List.Nodup _))

variable {f : Field} {fs : List Field} {key : String}

/-- A field answers to its keys. -/
theorem answersTo_iff : f.answersTo key = true ↔ key ∈ f.keys := by
  simp [answersTo, keys]

/-- A key names none of the fields. -/
def Foreign (fs : List Field) (key : String) : Prop := ∀ f ∈ fs, f.answersTo key = false

instance : Decidable (Foreign fs key) :=
  inferInstanceAs (Decidable (∀ f ∈ fs, f.answersTo key = false))

/-- Every key is foreign to no fields. -/
theorem foreign_nil : Foreign [] key := fun _ hf => absurd hf List.not_mem_nil

/-- The first field does not answer to a foreign key. -/
theorem Foreign.head (h : Foreign (f :: fs) key) : f.answersTo key = false := h f List.mem_cons_self

/-- A key that is foreign to all fields is foreign to the later ones. -/
theorem Foreign.tail (h : Foreign (f :: fs) key) : Foreign fs key := fun g hg =>
  h g (List.mem_cons_of_mem _ hg)

/-- Fields are distinct when the first has keys of its own and the others are distinct. -/
theorem distinct_cons : Distinct (f :: fs) ↔
    f.keys.Nodup ∧ Distinct fs ∧ ∀ key ∈ f.keys, ∀ key' ∈ fs.flatMap keys, key ≠ key' := by
  rw [Distinct, List.flatMap_cons, List.nodup_append]
  rfl

/-- The later ones of distinct fields are distinct. -/
theorem Distinct.tail (h : Distinct (f :: fs)) : Distinct fs := (distinct_cons.1 h).2.1

/-- What the first field answers to is foreign to the others. -/
theorem Distinct.foreign (h : Distinct (f :: fs)) (hkey : f.answersTo key = true) :
    Foreign fs key := by
  intro g hg
  rw [Bool.eq_false_iff]
  intro hg'
  have hmem : key ∈ fs.flatMap keys := List.mem_flatMap.2 ⟨g, hg, answersTo_iff.1 hg'⟩
  exact (distinct_cons.1 h).2.2 key (answersTo_iff.1 hkey) key hmem rfl

/-- A field answers to its name. -/
theorem answersTo_name (f : Field) : f.answersTo f.name = true := by simp [answersTo]

end Field

/-- The fields that a key names have the values that they have when they are absent. -/
def Row.Spare : (fs : List Field) → Row fs → String → Prop
  | [], _, _ => True
  | f :: fs, (v, row), key => (f.answersTo key = true → f.absent = some v) ∧ Spare fs row key

/-- A field stands among the entries of an object: under one of its names, with what spells its
value, or not at all, if that says the same. -/
inductive FieldForm.Stands (f : Field) [FieldForm f] (v : f.Value)
    (entries : List (String × Json)) : Prop where
  | absent (hnone : (entries.filter fun e => f.answersTo e.1) = []) (hv : f.absent = some v)
  | present {e : String × Json} (hone : (entries.filter fun e => f.answersTo e.1) = [e])
    (hv : FieldForm.Spells v e.2)

namespace FieldForm.Stands

variable {f : Field} [FieldForm f] {v : f.Value} {entries entries' : List (String × Json)}

/-- Only the entries that name a field matter to it. -/
theorem congr (h : Stands f v entries) (hsame : (entries'.filter fun e => f.answersTo e.1) =
    entries.filter fun e => f.answersTo e.1) : Stands f v entries' := by
  cases h with
  | absent hnone hv => exact .absent (hsame.trans hnone) hv
  | present hone hv => exact .present (hsame.trans hone) hv

/-- An entry can be replaced by another that names the field if the first does, and then spells its
value if the first does. -/
theorem replace {before after : List (String × Json)} {e e' : String × Json}
    (h : Stands f v (before ++ e :: after)) (hkey : f.answersTo e'.1 = f.answersTo e.1)
    (hvalue : f.answersTo e.1 = true → Spells v e.2 → Spells v e'.2) :
    Stands f v (before ++ e' :: after) := by
  cases hanswers : f.answersTo e.1 with
  | false =>
    refine h.congr ?_
    rw [List.filter_append, List.filter_append, List.filter_cons, List.filter_cons, hkey, hanswers]
    rfl
  | true =>
    have hfilter : ∀ e₀ : String × Json, f.answersTo e₀.1 = true →
        ((before ++ e₀ :: after).filter fun e => f.answersTo e.1) =
          (before.filter fun e => f.answersTo e.1) ++
            e₀ :: after.filter fun e => f.answersTo e.1 := fun e₀ he₀ => by
      rw [List.filter_append, List.filter_cons, if_pos he₀]
    cases h with
    | absent hnone hv =>
      rw [hfilter e hanswers] at hnone
      exact absurd hnone (List.append_ne_nil_of_right_ne_nil _ (List.cons_ne_nil _ _))
    | present hone hv =>
      rw [hfilter e hanswers] at hone
      obtain ⟨hbefore, hrest⟩ | ⟨-, hrest⟩ := List.append_eq_singleton_iff.1 hone
      · obtain ⟨rfl, hafter⟩ := List.cons.inj hrest
        refine .present (e := e') ?_ (hvalue hanswers hv)
        rw [hfilter e' (hkey.trans hanswers), hbefore, hafter]
        rfl
      · cases hrest

end FieldForm.Stands

/-- How the rows of fields are spelled: by the forms of all fields. -/
class inductive RowForm : List Field → Type 1
  | nil : RowForm []
  | cons {f : Field} {fs : List Field} (first : FieldForm f) (rest : RowForm fs) : RowForm (f :: fs)

namespace RowForm

variable {f : Field} {fs : List Field}

instance ofNil : RowForm [] := .nil

instance ofCons [first : FieldForm f] [rest : RowForm fs] : RowForm (f :: fs) := .cons first rest

/-- All fields of a row stand among the entries of an object. -/
def Spells : {fs : List Field} → RowForm fs → Row fs → List (String × Json) → Prop
  | [], .nil, _, _ => True
  | f :: _, .cons _ rest, (v, row), entries =>
    FieldForm.Stands f v entries ∧ rest.Spells row entries

/-- All fields of a row are writable. -/
def Writable : {fs : List Field} → RowForm fs → Row fs → Prop
  | [], .nil, _ => True
  | _ :: _, .cons _ rest, (v, row) => FieldForm.Writable v ∧ rest.Writable row

/-- What stands under the key of a field is edited as the form of the field allows. -/
def EditUnder (key : String) (j j' : Json) : {fs : List Field} → RowForm fs → Row fs → Prop
  | [], .nil, _ => False
  | f :: _, .cons _ rest, (v, row) =>
    (f.answersTo key = true ∧ FieldForm.Edit v j j') ∨ rest.EditUnder key j j' row

/-- One edit of the entries of a record, which says nothing new: a key is dropped whose field has
the value it has by default, a key is added that names no field, a key is replaced by another that
names the same field, or what stands under a key is edited in its turn. -/
inductive Edit (F : RowForm fs) (row : Row fs) :
    List (String × Json) → List (String × Json) → Prop
  | drop (entries : List (String × Json)) (key : String) (h : Row.Spare fs row key) :
    F.Edit row entries (entries.filter fun e => e.1 != key)
  | add (before after : List (String × Json)) (e : String × Json) (h : Field.Foreign fs e.1) :
    F.Edit row (before ++ after) (before ++ e :: after)
  | rename (before after : List (String × Json)) (key key' : String) (j : Json)
    (h : ∀ f ∈ fs, f.answersTo key' = f.answersTo key) :
    F.Edit row (before ++ (key, j) :: after) (before ++ (key', j) :: after)
  | inside (before after : List (String × Json)) (key : String) (j j' : Json)
    (h : F.EditUnder key j j' row) :
    F.Edit row (before ++ (key, j) :: after) (before ++ (key, j') :: after)

end RowForm

namespace Slots

variable {f : Field} {fs : List Field} {source : Source}

/-- Entries are put into slots one after the other. -/
theorem putAll_cons (e : String × Json) (rest : List (String × Json)) (slots : Slots fs) :
    putAll source fs (Document.ofEntries (e :: rest)) slots =
      put source e.1 (.ofJson e.2) fs slots >>= putAll source fs (Document.ofEntries rest) := rfl

/-- An entry in memory that names no field is skipped. -/
theorem put_of_foreign {e : String × Json} (h : Field.Foreign fs e.1) (slots : Slots fs) :
    put source e.1 (.ofJson e.2) fs slots = .ok slots := by
  induction fs with
  | nil =>
    simp only [put]
    rw [Document.skipFault_ofJson]
  | cons f fs ih =>
    obtain ⟨value, rest⟩ := slots
    simp only [put]
    rw [h.head, ih h.tail]
    rfl

/-- An entry goes into the first slot that answers to its key. -/
theorem put_cons_of_answersTo {e : String × Json} (h : f.answersTo e.1 = true) (rest : Slots fs) :
    put source e.1 (.ofJson e.2) (f :: fs) (none, rest) =
      (f.decode source (.ofJson e.2)).map fun value => (some value, rest) := by
  simp only [put]
  rw [if_pos h]
  rfl

/-- An entry passes by a slot that does not answer to its key. -/
theorem put_cons_of_not {e : String × Json} (h : f.answersTo e.1 = false) (value : Option f.Value)
    (rest : Slots fs) : put source e.1 (.ofJson e.2) (f :: fs) (value, rest) =
      (put source e.1 (.ofJson e.2) fs rest).map (value, ·) := by
  simp only [put]
  rw [h]
  rfl

/-- Entries that do not name the first field are read into the places of the others. -/
theorem putAll_of_none {entries : List (String × Json)}
    (h : (entries.filter fun e => f.answersTo e.1) = []) (value : Option f.Value)
    (rest : Slots fs) :
    putAll source (f :: fs) (Document.ofEntries entries) (value, rest) =
      (putAll source fs (Document.ofEntries entries) rest).map (value, ·) := by
  induction entries generalizing rest with
  | nil => rfl
  | cons e entries ih =>
    have hnot : f.answersTo e.1 = false := by
      have := List.filter_eq_nil_iff.1 h e List.mem_cons_self
      simpa using this
    rw [List.filter_cons_of_neg (by simp [hnot])] at h
    rw [putAll_cons, putAll_cons, put_cons_of_not hnot]
    cases put source e.1 (.ofJson e.2) fs rest with
    | error error => rfl
    | ok slots => exact ih h slots

/-- An entry that names the first field is read into its place, and the others skip it. -/
theorem putAll_of_one {entries : List (String × Json)} {e : String × Json} {value : f.Value}
    {rest slots : Slots fs} (hforeign : ∀ key, f.answersTo key = true → Field.Foreign fs key)
    (h : (entries.filter fun e => f.answersTo e.1) = [e])
    (hvalue : f.decode source (.ofJson e.2) = .ok value)
    (hrest : putAll source fs (Document.ofEntries entries) rest = .ok slots) :
    putAll source (f :: fs) (Document.ofEntries entries) (none, rest) =
      .ok (some value, slots) := by
  induction entries generalizing rest with
  | nil => cases h
  | cons first entries ih =>
    rw [putAll_cons] at hrest ⊢
    cases hnames : f.answersTo first.1 with
    | true =>
      rw [List.filter_cons, if_pos hnames] at h
      obtain ⟨rfl, hnone⟩ := List.cons.inj h
      rw [put_of_foreign (hforeign _ hnames)] at hrest
      rw [put_cons_of_answersTo hnames, hvalue]
      exact (putAll_of_none hnone _ rest).trans (map_eq_ok.2 ⟨slots, hrest, rfl⟩)
    | false =>
      rw [List.filter_cons_of_neg (by simp [hnames])] at h
      obtain ⟨rest', hput, hrest⟩ := bind_eq_ok.1 hrest
      rw [put_cons_of_not hnames, hput]
      exact ih h hrest

end Slots

namespace RowForm

variable {f : Field} {fs : List Field}

/-- A row is read from whatever spells it. -/
theorem read (F : RowForm fs) (hdistinct : Field.Distinct fs) {row : Row fs}
    {entries : List (String × Json)} (h : F.Spells row entries) (source : Source) :
    ∃ slots, Slots.putAll source fs (Document.ofEntries entries) (Slots.empty fs) = .ok slots ∧
      slots.complete fs = .ok row := by
  induction F with
  | nil =>
    refine ⟨(), ?_, rfl⟩
    induction entries with
    | nil => rfl
    | cons e rest ih =>
      rw [Slots.putAll_cons, Slots.put_of_foreign Field.foreign_nil]
      exact ih trivial
  | cons first rest ih =>
    obtain ⟨v, row⟩ := row
    obtain ⟨hfirst, hrest⟩ := h
    obtain ⟨slots, hput, hcomplete⟩ := ih hdistinct.tail hrest
    cases hfirst with
    | absent hnone hv =>
      refine ⟨(none, slots), ?_, ?_⟩
      · exact (Slots.putAll_of_none hnone _ _).trans (map_eq_ok.2 ⟨slots, hput, rfl⟩)
      · simp only [Slots.complete, Option.none_or]
        rw [hv, hcomplete]
        rfl
    | present hone hv =>
      refine ⟨(some v, slots), ?_, ?_⟩
      · exact Slots.putAll_of_one (fun _ => hdistinct.foreign) hone (first.read hv source) hput
      · simp only [Slots.complete, Option.some_or]
        rw [hcomplete]
        rfl

/-- Only the entries that name a field matter. -/
theorem Spells.congr {F : RowForm fs} {row : Row fs} {entries entries' : List (String × Json)}
    (h : F.Spells row entries) (hsame : ∀ f ∈ fs,
      (entries'.filter fun e => f.answersTo e.1) = entries.filter fun e => f.answersTo e.1) :
    F.Spells row entries' := by
  induction F with
  | nil => trivial
  | cons first rest ih =>
    obtain ⟨v, row⟩ := row
    obtain ⟨hfirst, hrest⟩ := h
    obtain ⟨hfilter, hsame⟩ := List.forall_mem_cons.1 hsame
    exact ⟨hfirst.congr hfilter, ih hrest hsame⟩

/-- An entry with a key that is foreign to the fields changes nothing. -/
theorem Spells.cons {F : RowForm fs} {row : Row fs} {entries : List (String × Json)}
    (h : F.Spells row entries) {e : String × Json} (he : Field.Foreign fs e.1) :
    F.Spells row (e :: entries) :=
  h.congr fun f hf => by rw [List.filter_cons, he f hf]; rfl

/-- Keys that name the same fields can stand for each other. -/
theorem Spells.rename {F : RowForm fs} {row : Row fs} {before after : List (String × Json)}
    {key key' : String} {j : Json} (h : F.Spells row (before ++ (key, j) :: after))
    (hkeys : ∀ f ∈ fs, f.answersTo key' = f.answersTo key) :
    F.Spells row (before ++ (key', j) :: after) := by
  induction F with
  | nil => trivial
  | cons first rest ih =>
    obtain ⟨v, row⟩ := row
    obtain ⟨hfirst, hrest⟩ := h
    obtain ⟨hkey, hkeys⟩ := List.forall_mem_cons.1 hkeys
    exact ⟨hfirst.replace hkey fun _ hv => hv, ih hrest hkeys⟩

/-- A key can be dropped if the fields that it names have the values that they have without it. -/
theorem Spells.drop {F : RowForm fs} {row : Row fs} {entries : List (String × Json)}
    (h : F.Spells row entries) {key : String} (hspare : Row.Spare fs row key) :
    F.Spells row (entries.filter fun e => e.1 != key) := by
  induction F with
  | nil => trivial
  | @cons f fs first rest ih =>
    obtain ⟨v, row⟩ := row
    obtain ⟨hfirst, hrest⟩ := h
    obtain ⟨habsent, hspare⟩ := hspare
    have hfilter : ((entries.filter fun e => e.1 != key).filter fun e => f.answersTo e.1) =
        (entries.filter fun e => f.answersTo e.1).filter fun e => e.1 != key := by
      rw [List.filter_filter, List.filter_filter]
      exact List.filter_congr fun e _ => Bool.and_comm ..
    refine ⟨?_, ih hrest hspare⟩
    cases hfirst with
    | absent hnone hv => exact .absent (by rw [hfilter, hnone, List.filter_nil]) hv
    | @present e hone hv =>
      rw [hone, List.filter_singleton] at hfilter
      cases hkey : e.1 != key with
      | true => exact .present (hfilter.trans (by rw [hkey, cond_true])) hv
      | false =>
        have hmem : e ∈ entries.filter fun e => f.answersTo e.1 := hone ▸ List.mem_singleton_self e
        have hanswers : f.answersTo key = true :=
          eq_of_beq (Bool.not_eq_eq_eq_not.1 hkey) ▸ (List.mem_filter.1 hmem).2
        exact .absent (hfilter.trans (by rw [hkey, cond_false])) (habsent hanswers)

/-- What stands under a key can be edited only if the key names a field. -/
theorem EditUnder.exists {F : RowForm fs} {row : Row fs} {key : String} {j j' : Json}
    (h : F.EditUnder key j j' row) : ∃ f ∈ fs, f.answersTo key = true := by
  induction F with
  | nil => exact h.elim
  | cons first rest ih =>
    obtain ⟨v, row⟩ := row
    rcases h with ⟨hanswers, -⟩ | h
    · exact ⟨_, List.mem_cons_self, hanswers⟩
    · obtain ⟨g, hg, hanswers⟩ := ih h
      exact ⟨g, List.mem_cons_of_mem _ hg, hanswers⟩

/-- What stands under a key can be edited. -/
theorem Spells.inside {F : RowForm fs} (hdistinct : Field.Distinct fs) {row : Row fs}
    {before after : List (String × Json)} {key : String} {j j' : Json}
    (h : F.Spells row (before ++ (key, j) :: after)) (hedit : F.EditUnder key j j' row) :
    F.Spells row (before ++ (key, j') :: after) := by
  -- A field that does not answer to the key sees the same entries.
  have hsame : ∀ f : Field, f.answersTo key = false →
      ((before ++ (key, j') :: after).filter fun e => f.answersTo e.1) =
        (before ++ (key, j) :: after).filter fun e => f.answersTo e.1 := fun f hf => by
    rw [List.filter_append, List.filter_append, List.filter_cons, List.filter_cons, hf]
    rfl
  induction F with
  | nil => trivial
  | @cons f fs first rest ih =>
    obtain ⟨v, row⟩ := row
    obtain ⟨hfirst, hrest⟩ := h
    rcases hedit with ⟨hanswers, hedit⟩ | hedit
    · refine ⟨hfirst.replace rfl fun _ hv => first.edit hv hedit, hrest.congr fun g hg => ?_⟩
      exact hsame g (hdistinct.foreign hanswers g hg)
    · obtain ⟨g, hg, hanswers⟩ := hedit.exists
      have hnot : f.answersTo key = false := by
        rw [Bool.eq_false_iff]
        intro hf
        rw [hdistinct.foreign hf g hg] at hanswers
        cases hanswers
      exact ⟨hfirst.congr (hsame f hnot), ih hdistinct.tail hrest hedit⟩

/-- An edit of the entries of a record leaves them spelling the same row. -/
theorem Spells.edit {F : RowForm fs} (hdistinct : Field.Distinct fs) {row : Row fs}
    {entries entries' : List (String × Json)} (h : F.Spells row entries)
    (hedit : F.Edit row entries entries') : F.Spells row entries' := by
  cases hedit with
  | drop _ key hspare => exact h.drop hspare
  | add before after e he =>
    refine h.congr fun f hf => ?_
    rw [List.filter_append, List.filter_append, List.filter_cons, he f hf]
    rfl
  | rename before after key key' j hkeys => exact h.rename hkeys
  | inside before after key j j' hunder => exact h.inside hdistinct hunder

/-- The keys of a row are the names of its fields. -/
theorem mem_entries {row : Row fs} {e : String × Json} (h : e ∈ Row.entries fs row) :
    ∃ f ∈ fs, e.1 = f.name := by
  induction fs with
  | nil => cases h
  | cons f fs ih =>
    obtain ⟨v, row⟩ := row
    have htail : e ∈ Row.entries fs row → ∃ f' ∈ f :: fs, e.1 = f'.name := fun h => by
      obtain ⟨f', hf', hname⟩ := ih h
      exact ⟨f', List.mem_cons_of_mem _ hf', hname⟩
    simp only [Row.entries] at h
    split at h
    · rcases List.mem_cons.1 h with rfl | h
      · exact ⟨f, List.mem_cons_self, rfl⟩
      · exact htail h
    · exact htail h

/-- A writable row is spelled by its entries. -/
theorem write (F : RowForm fs) (hdistinct : Field.Distinct fs) {row : Row fs}
    (h : F.Writable row) : F.Spells row (Row.entries fs row) := by
  induction F with
  | nil => trivial
  | @cons f fs first rest ih =>
    obtain ⟨v, row⟩ := row
    obtain ⟨hv, hrow⟩ := h
    have hrest := ih hdistinct.tail hrow
    -- The other fields have other names, so none of their entries is taken for the first.
    have hnone : ((Row.entries fs row).filter fun e => f.answersTo e.1) = [] :=
      List.filter_eq_nil_iff.2 fun e he hanswers => by
        obtain ⟨g, hg, hname⟩ := mem_entries he
        have := hdistinct.foreign hanswers g hg
        rw [hname, g.answersTo_name] at this
        cases this
    simp only [Row.entries]
    split
    · next j hj =>
      refine ⟨.present (e := (f.name, j)) ?_ (first.write hv j hj), ?_⟩
      · rw [List.filter_cons, if_pos f.answersTo_name, hnone]
      · exact hrest.cons (hdistinct.foreign f.answersTo_name)
    · next hj => exact ⟨.absent hnone (first.leaveOut hv hj), hrest⟩

end RowForm

/-- A row is read from an object in which its fields stand. -/
theorem RowForm.decode {fs : List Field} (F : RowForm fs) (hdistinct : Field.Distinct fs)
    {row : Row fs} {entries : List (String × Json)} (h : F.Spells row entries) (name : RecordName)
    (source : Source) :
    Row.decode name fs source (.object (Document.ofEntries entries) none) = .ok row := by
  obtain ⟨slots, hput, hcomplete⟩ := F.read hdistinct h source
  change (Slots.putAll source fs (Document.ofEntries entries) (Slots.empty fs) >>= _) = _
  rw [hput]
  exact hcomplete

/-- The form of a record: an object in which its fields stand. -/
@[reducible] def Form.record {α : Type} {name : String} {fs : List Field} {build : Row fs → α}
    {take : α → Row fs} [F : RowForm fs] (hdistinct : Field.Distinct fs)
    (hbuild : ∀ v, build (take v) = v) : Form (.record name fs build take) where
  Spells v j := ∃ entries, j = .object entries ∧ F.Spells (take v) entries
  Writable v := F.Writable (take v)
  Edit v j j' := ∃ entries entries', j = .object entries ∧ j' = .object entries' ∧
    F.Edit (take v) entries entries'
  read := by
    rintro v _ ⟨entries, rfl, h⟩ source
    exact map_eq_ok.2 ⟨take v, F.decode hdistinct h _ source, hbuild v⟩
  write h := ⟨_, rfl, F.write hdistinct h⟩
  edit := by
    rintro v _ _ ⟨entries, rfl, h⟩ ⟨_, entries', heq, rfl, hedit⟩
    cases heq
    exact ⟨entries', rfl, h.edit hdistinct hedit⟩

/-- A value of a codec that can be written. -/
class Codec.Writes {α : Type} (c : Codec α) [Form c] (v : α) : Prop where
  writable : Form.Writable c v

namespace Codec

instance {s : String} : string.Writes s := ⟨trivial⟩

instance {b : Bool} : bool.Writes b := ⟨trivial⟩

instance {n : UInt32} : uint32.Writes n := ⟨trivial⟩

instance {n : UInt64} : uint64.Writes n := ⟨trivial⟩

instance {n : UInt64} : count.Writes n := ⟨trivial⟩

instance {α : Type} {c : Codec α} [Form c] : (list c).Writes [] := ⟨nofun⟩

instance {α : Type} {c : Codec α} [Form c] : (map c).Writes .empty := ⟨nofun⟩

end Codec

/-- A field that reads only what it can write, and that can write what it has when it is absent. -/
class FieldForm.Retains (f : Field) [FieldForm f] : Prop where
  writable {source : Source} {d : Document} {v : f.Value} (hd : d.Fits)
    (h : f.decode source d = .ok v) : FieldForm.Writable v
  default {v : f.Value} (h : f.absent = some v) : FieldForm.Writable v

namespace FieldForm

variable {α : Type} {c : Codec α} [Form c] [c.Retains] {name : String}

instance {aliases : List String} :
    Retains ⟨α, name, aliases, none, c.decode, fun value => some (c.encode value)⟩ :=
  ⟨Codec.Retains.writable, nofun⟩

instance {aliases : List String} {default : α} [hdefault : c.Writes default] :
    Retains ⟨α, name, aliases, some default, c.decode, fun value => some (c.encode value)⟩ :=
  ⟨Codec.Retains.writable, fun h => Option.some.inj h ▸ hdefault.writable⟩

instance [c.RejectsNull] : Retains (.optional name c) where
  writable {source d v} hd h a ha := by
    simp only [Field.optional] at h
    split at h
    · cases h
      cases ha
    · obtain ⟨b, hb, rfl⟩ := map_eq_ok.1 h
      cases ha
      exact Codec.Retains.writable hd hb
  default h := by
    cases h
    exact nofun

end FieldForm

namespace RowForm

/-- All fields read only what they can write. -/
class inductive Retains : {fs : List Field} → RowForm fs → Prop
  | nil : Retains .nil
  | cons {f : Field} {fs : List Field} {first : FieldForm f} {rest : RowForm fs}
    (hfirst : FieldForm.Retains f) (hrest : Retains rest) : Retains (.cons first rest)

instance : Retains ofNil := .nil

instance {f : Field} {fs : List Field} [FieldForm f] [rest : RowForm fs]
    [hfirst : FieldForm.Retains f] [hrest : rest.Retains] : Retains (@ofCons f fs _ rest) :=
  .cons hfirst hrest

/-- All values that have been read are writable. -/
def Filled : {fs : List Field} → RowForm fs → Slots fs → Prop
  | [], .nil, _ => True
  | _ :: _, .cons _ rest, (v, slots) => (∀ a ∈ v, FieldForm.Writable a) ∧ rest.Filled slots

variable {fs : List Field} {F : RowForm fs} {source : Source}

/-- Empty slots are filled as far as they go. -/
theorem filled_empty (F : RowForm fs) : F.Filled (Slots.empty fs) := by
  induction F with
  | nil => trivial
  | cons first rest ih => exact ⟨nofun, ih⟩

/-- Putting a document that fits into filled slots leaves them filled. -/
theorem Retains.put (hF : F.Retains) {key : String} {d : Document} (hd : d.Fits)
    {slots slots' : Slots fs} (hslots : F.Filled slots)
    (h : Slots.put source key d fs slots = .ok slots') : F.Filled slots' := by
  induction hF with
  | nil => trivial
  | cons hfirst _ ih =>
    obtain ⟨v, rest⟩ := slots
    obtain ⟨hv, hrest⟩ := hslots
    simp only [Slots.put] at h
    split at h
    · split at h
      · cases h
      · obtain ⟨a, ha, h⟩ := bind_eq_ok.1 h
        cases h
        exact ⟨fun b hb => Option.some.inj hb ▸ hfirst.writable hd ha, hrest⟩
    · obtain ⟨rest', hrest', h⟩ := bind_eq_ok.1 h
      cases h
      exact ⟨hv, ih hrest hrest'⟩

/-- Putting documents that fit into filled slots, one after the other, leaves them filled. -/
theorem Retains.putAll (hF : F.Retains) {entries : List (Document × Document)}
    (hentries : ∀ e ∈ entries, e.2.Fits) {slots slots' : Slots fs} (hslots : F.Filled slots)
    (h : Slots.putAll source fs entries slots = .ok slots') : F.Filled slots' := by
  induction entries generalizing slots with
  | nil =>
    cases h
    exact hslots
  | cons e rest ih =>
    obtain ⟨hd, hrest⟩ := List.forall_mem_cons.1 hentries
    obtain ⟨name, -, h⟩ := bind_eq_ok.1 h
    obtain ⟨slots₁, hput, h⟩ := bind_eq_ok.1 h
    exact ih hrest (hF.put hd hslots hput) h

/-- What filled slots are completed to can be written. -/
theorem Retains.complete (hF : F.Retains) {slots : Slots fs} (hslots : F.Filled slots)
    {row : Row fs} (h : slots.complete fs = .ok row) : F.Writable row := by
  induction hF with
  | nil => trivial
  | cons hfirst _ ih =>
    obtain ⟨v, rest⟩ := slots
    obtain ⟨hv, hrest⟩ := hslots
    simp only [Slots.complete] at h
    split at h
    · cases h
    · next value hvalue =>
      obtain ⟨row', hrow', h⟩ := bind_eq_ok.1 h
      cases h
      refine ⟨?_, ih hrest hrow'⟩
      rcases Option.or_eq_some_iff.1 hvalue with hin | ⟨-, habsent⟩
      · exact hv value hin
      · exact hfirst.default habsent

/-- What is read of an array of documents that fit can be written. -/
theorem Retains.ofItems (hF : F.Retains) {expected : Expected} {ending : Option Fault} {taken : Nat}
    {items : List Document} (hitems : ∀ d ∈ items, d.Fits) {row : Row fs}
    (h : Row.ofItems source expected ending fs taken items = .ok row) : F.Writable row := by
  induction hF generalizing taken items with
  | nil => trivial
  | cons hfirst _ ih =>
    cases items with
    | nil =>
      simp only [Row.ofItems] at h
      split at h
      · cases h
      · cases h
      · next habsent =>
        obtain ⟨row', hrow', h⟩ := bind_eq_ok.1 h
        cases h
        exact ⟨hfirst.default habsent, ih (List.forall_mem_nil _) hrow'⟩
    | cons item items =>
      obtain ⟨hitem, hrest⟩ := List.forall_mem_cons.1 hitems
      obtain ⟨value, hvalue, h⟩ := bind_eq_ok.1 h
      obtain ⟨row', hrow', h⟩ := bind_eq_ok.1 h
      cases h
      exact ⟨hfirst.writable hitem hvalue, ih hrest hrow'⟩

/-- What is read as a row can be written. -/
theorem Retains.decode (hF : F.Retains) {name : RecordName} {d : Document} (hd : d.Fits)
    {row : Row fs} (h : Row.decode name fs source d = .ok row) : F.Writable row := by
  cases d with
  | object entries ending =>
    obtain ⟨slots, hput, h⟩ := bind_eq_ok.1 h
    obtain ⟨slots', hending, h⟩ := bind_eq_ok.1 h
    obtain ⟨-, rfl⟩ := Document.atEnd_eq_ok (Codec.liftFault_eq_ok hending)
    exact hF.complete (hF.putAll (Document.fitsEntries_iff.1 hd) F.filled_empty hput) h
  | list items ending => exact hF.ofItems (Document.fitsItems_iff.1 hd) h
  | _ => cases h

end RowForm

/-- A record of such fields reads only what it can write. -/
theorem Codec.Retains.record {α : Type} {name : String} {fs : List Field} {build : Row fs → α}
    {take : α → Row fs} {form : Form (.record name fs build take)} [F : RowForm fs]
    [hF : F.Retains]
    (hbuild : ∀ row, F.Writable row → Form.Writable (.record name fs build take) (build row)) :
    (Codec.record name fs build take).Retains where
  writable {source d v} hd h := by
    obtain ⟨row, hrow, rfl⟩ := map_eq_ok.1 h
    exact hbuild row (hF.decode hd hrow)

end DeviceSuite
