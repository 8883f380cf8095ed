import DeviceSuite.Codec.Choice
import DeviceSuite.Proofs.Codec.Json
import DeviceSuite.Proofs.Double
import Mathlib.Data.List.Forall2
import Mathlib.Logic.Relation

/-!
# Forms of values

A value has one JSON form that its codec writes, but others are read as the same value: a record
may leave out what it would have by default, and may say more than it is asked. A form of a codec
tells which values can be written at all, which JSON values spell them, and how one spelling is
edited into another.
-/

namespace DeviceSuite

variable {α : Type}

/-- How the values of a codec are spelled. Whatever spells a value is read as that value, wherever
it comes from, and a writable value is spelled by what the codec writes. An edit of a spelling,
which is one change in one place, leaves a spelling of the same value. -/
class Form (c : Codec α) where
  Spells : α → Json → Prop
  Writable : α → Prop
  Edit : α → Json → Json → Prop
  read {v : α} {j : Json} (h : Spells v j) (source : Source) : c.decode source (.ofJson j) = .ok v
  write {v : α} (h : Writable v) : Spells v (c.encode v)
  edit {v : α} {j j' : Json} (h : Spells v j) (hedit : Edit v j j') : Spells v j'

namespace Form

/-- A writable value is read back from what is written for it. -/
theorem read_write {c : Codec α} [Form c] {v : α} (h : Writable c v) :
    c.ofJson (c.encode v) = .ok v :=
  read (write h) .memory

/-- After any number of edits a writable value is still read back. -/
theorem read_edited {c : Codec α} [Form c] {v : α} (h : Writable c v) {j : Json}
    (hedits : Relation.ReflTransGen (Edit c v) (c.encode v) j) : c.ofJson j = .ok v := by
  have hspells : Spells c v j := by
    induction hedits with
    | refl => exact write h
    | tail _ hedit ih => exact edit ih hedit
  exact read hspells .memory

/-- The form of a codec whose values are spelled in one way only. -/
@[reducible] def exact {c : Codec α} (Writable : α → Prop)
    (h : ∀ v, Writable v → ∀ source, c.decode source (.ofJson (c.encode v)) = .ok v) : Form c where
  Spells v j := Writable v ∧ j = c.encode v
  Writable := Writable
  Edit _ _ _ := False
  read hv source := hv.2 ▸ h _ hv.1 source
  write hv := ⟨hv, rfl⟩
  edit _ := False.elim

instance : Form .string := exact (fun _ => True) fun _ _ _ => rfl

instance : Form .bool := exact (fun _ => True) fun _ _ _ => rfl

/-- An integer within the bounds is decoded as it is. -/
theorem decodeInteger_of_bounds {name : String} {least greatest n : Int}
    (h : least ≤ n ∧ n ≤ greatest) :
    Codec.decodeInteger name least greatest (.int n) = .ok n :=
  if_pos h

instance : Form .uint32 := exact (fun _ => True) fun n _ source => by
  have hlt := n.toNat_lt
  have hbounds : (0 : Int) ≤ (n.toNat : Int) ∧ (n.toNat : Int) ≤ 0xffffffff := by omega
  exact map_eq_ok.2 ⟨_, decodeInteger_of_bounds hbounds, UInt32.ofNat_toNat⟩

/-- A word of 64 bits is read back from its number. -/
theorem decodeInteger_word (name : String) (n : UInt64) :
    (Codec.decodeInteger name 0 0xffffffffffffffff (.int n.toNat)).map
      (fun n => UInt64.ofNat n.toNat) = .ok n := by
  have hlt := n.toNat_lt
  have hbounds : (0 : Int) ≤ (n.toNat : Int) ∧ (n.toNat : Int) ≤ 0xffffffffffffffff := by omega
  exact map_eq_ok.2 ⟨_, decodeInteger_of_bounds hbounds, UInt64.ofNat_toNat⟩

instance : Form .uint64 := exact (fun _ => True) fun n _ _ => decodeInteger_word "u64" n

instance : Form .count := exact (fun _ => True) fun n _ _ => decodeInteger_word "usize" n

instance : Form .int32 := exact (fun _ => True) fun n _ source => by
  have hlow := n.le_toInt
  have hhigh := n.toInt_lt
  have hbounds : (-0x80000000 : Int) ≤ n.toInt ∧ n.toInt ≤ 0x7fffffff := by omega
  exact map_eq_ok.2 ⟨_, decodeInteger_of_bounds hbounds, Int32.ofInt_toInt n⟩

/-- A double that is not finite has no number to be written as. -/
instance : Form .double := exact (fun x => x.isFinite = true) fun x hx source => by
  have hencode : Codec.double.encode x = .real x := if_pos hx
  rw [hencode]
  rfl

/-- An instant is written as a text, which has to be read as the same instant. -/
instance : Form .instant := exact (fun t => Instant.ofString t.text = .ok t) fun t ht source => by
  simp only [Codec.instant, Document.ofJson, ht]

instance : Form .json := exact Json.Normal fun j hj source => by
  change liftFault (Document.ofJson j).toJson = _
  rw [Document.toJson_ofJson hj]
  rfl

/-- A choice is spelled by its name, under which it has to be found. -/
@[reducible] def choice {values : List α} {name : α → String}
    (h : ∀ v, (values.map fun v => (name v, v)).lookup (name v) = some v) :
    Form (.choice values name) :=
  exact (fun _ => True) fun v _ source => by
    cases source <;>
    · change decodeName _ (name v) = _
      rw [decodeName, h v]

/-- Items that spell values are decoded to them. -/
theorem decodeItems_of_spells {c : Codec α} [Form c] {vs : List α} {items : List Json}
    (h : List.Forall₂ (Spells c) vs items) (source : Source) :
    Codec.decodeItems (c.decode source) (Document.ofItems items) = .ok vs := by
  induction h with
  | nil => rfl
  | cons hitem _ ih =>
    rw [Document.ofItems, Codec.decodeItems, read hitem source, ih]
    rfl

/-- Entries that spell values under the same keys are decoded to them. -/
theorem decodeEntries_of_spells {c : Codec α} [Form c] {values : List (String × α)}
    {entries : List (String × Json)}
    (h : List.Forall₂ (fun e e' => e'.1 = e.1 ∧ Spells c e.2 e'.2) values entries)
    (source : Source) :
    Codec.decodeEntries (c.decode source) (Document.ofEntries entries) = .ok values := by
  induction h with
  | nil => rfl
  | cons hentry _ ih =>
    rw [Document.ofEntries, Codec.decodeEntries, read hentry.2 source, ih, hentry.1]
    rfl

/-- Two lists stay related when related elements are put into one place of them. -/
theorem forall₂_set {β γ : Type} {R : β → γ → Prop} {bs : List β} {cs : List γ} {b : β} {c c' : γ}
    (h : List.Forall₂ R bs cs) {n : Nat} (hb : bs[n]? = some b) (hc : cs[n]? = some c)
    (hR : R b c → R b c') : List.Forall₂ R bs (cs.set n c') := by
  induction h generalizing n with
  | nil => cases hb
  | cons hhead hrest ih =>
    cases n with
    | zero =>
      cases hb
      cases hc
      exact .cons (hR hhead) hrest
    | succ n => exact .cons hhead (ih hb hc)

/-- Every item of a list is spelled by the item in its place. -/
instance list {c : Codec α} [Form c] : Form (.list c) where
  Spells vs j := ∃ items, j = .list items ∧ List.Forall₂ (Spells c) vs items
  Writable vs := ∀ v ∈ vs, Writable c v
  Edit vs j j' := ∃ (items : List Json) (n : Nat) (v : α) (item item' : Json), j = .list items ∧
    j' = .list (items.set n item') ∧ vs[n]? = some v ∧ items[n]? = some item ∧ Edit c v item item'
  read := by
    rintro vs _ ⟨items, rfl, hitems⟩ source
    exact bind_eq_ok.2 ⟨vs, decodeItems_of_spells hitems source, rfl⟩
  write := by
    refine fun {vs} h => ⟨_, rfl, ?_⟩
    rw [List.forall₂_map_right_iff, List.forall₂_same]
    exact fun v hv => write (h v hv)
  edit := by
    rintro vs _ _ ⟨items, rfl, hitems⟩ ⟨_, n, v, item, item', heq, rfl, hv, hitem, hedit⟩
    cases heq
    exact ⟨_, rfl, forall₂_set hitems hv hitem fun h => edit h hedit⟩

/-- The values of a map are spelled under their keys, in the order of the keys. -/
instance map {c : Codec α} [Form c] : Form (.map c) where
  Spells m j := ∃ entries, j = .object entries ∧
    List.Forall₂ (fun e e' => e'.1 = e.1 ∧ Spells c e.2 e'.2) m.entries entries
  Writable m := ∀ e ∈ m.entries, Writable c e.2
  Edit m j j' := ∃ (entries : List (String × Json)) (n : Nat) (key : String) (v : α)
    (item item' : Json), j = .object entries ∧ j' = .object (entries.set n (key, item')) ∧
      m.entries[n]? = some (key, v) ∧ entries[n]? = some (key, item) ∧ Edit c v item item'
  read := by
    rintro m _ ⟨entries, rfl, hentries⟩ source
    refine bind_eq_ok.2 ⟨_, decodeEntries_of_spells hentries source, ?_⟩
    rw [TextMap.ofList_entries]
    rfl
  write := by
    refine fun {m} h => ⟨_, rfl, ?_⟩
    rw [List.forall₂_map_right_iff, List.forall₂_same]
    exact fun e he => ⟨rfl, write (h e he)⟩
  edit := by
    rintro m _ _ ⟨entries, rfl, hentries⟩ ⟨_, n, key, v, item, item', heq, rfl, hv, hitem, hedit⟩
    cases heq
    exact ⟨_, rfl, forall₂_set hentries hv hitem fun h => ⟨rfl, edit h.2 hedit⟩⟩

end Form

/-- A type whose values go over the wire, with its codec and the form of its values. -/
structure WireType where
  Value : Type
  codec : Codec Value
  form : Form codec

attribute [instance] WireType.form

namespace Codec

/-- A codec that reads nothing from null. -/
class RejectsNull (c : Codec α) : Prop where
  reject (source : Source) (v : α) : c.decode source .null ≠ .ok v

/-- What spells a value of a codec that reads nothing from null is not null. -/
theorem RejectsNull.ofJson_ne_null {c : Codec α} [Form c] [c.RejectsNull] {v : α} {j : Json}
    (h : Form.Spells c v j) : Document.ofJson j ≠ .null := fun hnull =>
  reject .memory v (hnull ▸ Form.read h .memory)

instance : Codec.string.RejectsNull := ⟨nofun⟩

instance : Codec.uint32.RejectsNull := ⟨nofun⟩

instance : Codec.uint64.RejectsNull := ⟨nofun⟩

instance : Codec.double.RejectsNull := ⟨nofun⟩

/-- A codec that reads only what it can write. -/
class Retains (c : Codec α) [Form c] : Prop where
  writable {source : Source} {d : Document} {v : α} (hd : d.Fits) (h : c.decode source d = .ok v) :
    Form.Writable c v

instance : Codec.string.Retains := ⟨fun _ _ => trivial⟩

instance : Codec.bool.Retains := ⟨fun _ _ => trivial⟩

instance : Codec.uint32.Retains := ⟨fun _ _ => trivial⟩

instance : Codec.uint64.Retains := ⟨fun _ _ => trivial⟩

instance : Codec.count.Retains := ⟨fun _ _ => trivial⟩

instance : Codec.int32.Retains := ⟨fun _ _ => trivial⟩

/-- A document that is rejected is not decoded. -/
theorem reject_ne_ok {d : Document} {expected : Expected} {v : α} :
    d.reject expected ≠ .ok v := by
  cases d <;> exact nofun

/-- The doubles of a document are finite, and so are its integers when they are read as doubles. -/
instance : Codec.double.Retains where
  writable {source d v} hd h := by
    cases d with
    | real x =>
      cases h
      exact hd
    | int n =>
      cases h
      exact Double.isFinite_ofInt hd.1 hd.2
    | _ => cases h

instance : Codec.json.Retains where
  writable {source d v} hd h := by
    change liftFault d.toJson = _ at h
    cases hjson : d.toJson with
    | ok j =>
      rw [hjson] at h
      cases h
      exact Document.normal_toJson d hjson
    | error f =>
      rw [hjson] at h
      cases h

/-- A fault that is lifted is no value. -/
theorem liftFault_eq_ok {x : Except Fault α} {v : α} (h : liftFault x = .ok v) : x = .ok v := by
  cases x with
  | ok a => exact congrArg _ (Except.ok.inj h)
  | error f => cases h

/-- What decoding gives of each item, it gives of all values of a list. -/
theorem decodeItems_forall {decode : Document → Except DecodeError α} {items : List Document}
    {vs : List α} {P : α → Prop} (h : decodeItems decode items = .ok vs)
    (hP : ∀ d ∈ items, ∀ v, decode d = .ok v → P v) : ∀ v ∈ vs, P v := by
  induction items generalizing vs with
  | nil =>
    cases h
    exact nofun
  | cons item rest ih =>
    obtain ⟨hitem, hrest⟩ := List.forall_mem_cons.1 hP
    obtain ⟨v, hv, h⟩ := bind_eq_ok.1 h
    obtain ⟨vs', hvs, h⟩ := bind_eq_ok.1 h
    cases h
    exact List.forall_mem_cons.2 ⟨hitem v hv, ih hvs hrest⟩

/-- What decoding gives of each entry, it gives of all values of a map. -/
theorem decodeEntries_forall {decode : Document → Except DecodeError α}
    {entries : List (Document × Document)} {values : List (String × α)} {P : α → Prop}
    (h : decodeEntries decode entries = .ok values)
    (hP : ∀ e ∈ entries, ∀ v, decode e.2 = .ok v → P v) : ∀ e ∈ values, P e.2 := by
  induction entries generalizing values with
  | nil =>
    cases h
    exact nofun
  | cons entry rest ih =>
    obtain ⟨hentry, hrest⟩ := List.forall_mem_cons.1 hP
    obtain ⟨name, -, h⟩ := bind_eq_ok.1 h
    obtain ⟨v, hv, h⟩ := bind_eq_ok.1 h
    obtain ⟨values', hvalues, h⟩ := bind_eq_ok.1 h
    cases h
    exact List.forall_mem_cons.2 ⟨hentry v hv, ih hvalues hrest⟩

instance {c : Codec α} [Form c] [c.Retains] : (Codec.list c).Retains where
  writable {source d vs} hd h := by
    cases d with
    | list items ending =>
      obtain ⟨values, hvalues, h⟩ := bind_eq_ok.1 h
      obtain ⟨-, rfl⟩ := Document.atEnd_eq_ok (liftFault_eq_ok h)
      have hfits := Document.fitsItems_iff.1 hd
      exact decodeItems_forall hvalues fun d hmem v hv => Retains.writable (hfits d hmem) hv
    | _ => cases h

instance {c : Codec α} [Form c] [c.Retains] : (Codec.map c).Retains where
  writable {source d m} hd h := by
    cases d with
    | object entries ending =>
      obtain ⟨values, hvalues, h⟩ := bind_eq_ok.1 h
      obtain ⟨-, rfl⟩ := Document.atEnd_eq_ok (liftFault_eq_ok h)
      have hfits := Document.fitsEntries_iff.1 hd
      intro e he
      exact decodeEntries_forall hvalues (fun d hmem v hv => Retains.writable (hfits d hmem) hv) e
        (TextMap.mem_ofList he)
    | _ => cases h

end Codec

end DeviceSuite
