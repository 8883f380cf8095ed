import DeviceSuite.Proofs.TextMap
import DeviceSuite.Run.Lead
import Mathlib.Algebra.BigOperators.Group.Finset.Basic
import Mathlib.Algebra.GroupWithZero.Nat
import Mathlib.Algebra.Order.BigOperators.Group.Finset

/-!
# Tallies

How the changes of the state of a run change what is counted of it, and how the slots that tours
have counted add up for a device that is requested once, or more than once.
-/

namespace DeviceSuite

/-- The slots that the tours of one device have counted, by the places of all tours. -/
def counted : List String → (Nat → Nat) → String → Nat
  | [], _, _ => 0
  | x :: rest, share, id =>
    (if x = id then share 0 else 0) + counted rest (fun place => share (place + 1)) id

/-- The shares after one more slot of a tour. -/
def bump (share : Nat → Nat) (place : Nat) : Nat → Nat :=
  fun p => if place = p then share p + 1 else share p

section Counted

variable {ids : List String} {share : Nat → Nat} {id : String} {m place : Nat}

/-- The tours of a device have counted no more than each of them may. -/
theorem counted_le (h : ∀ p, share p ≤ m) : counted ids share id ≤ ids.count id * m := by
  induction ids generalizing share with
  | nil => exact Nat.zero_le _
  | cons x rest ih =>
    have hrest := ih fun p => h (p + 1)
    have hhead := h 0
    rw [counted]
    by_cases hx : x = id
    · rw [hx, List.count_cons_self, if_pos rfl, Nat.succ_mul]
      omega
    · rw [List.count_cons_of_ne hx, if_neg hx]
      omega

/-- The count of a device is not full when one of its tours has not counted all of its slots. -/
theorem counted_lt (h : ∀ p, share p ≤ m) (hplace : ids[place]? = some id) (hlt : share place < m) :
    counted ids share id < ids.count id * m := by
  induction ids generalizing share place with
  | nil => cases hplace
  | cons x rest ih =>
    rw [counted]
    cases place with
    | zero =>
      obtain rfl : x = id := by simpa using hplace
      have hrest : counted rest (fun p => share (p + 1)) x ≤ rest.count x * m :=
        counted_le fun p => h (p + 1)
      rw [List.count_cons_self, if_pos rfl, Nat.succ_mul]
      omega
    | succ place =>
      have hrest := ih (fun p => h (p + 1)) hplace hlt
      have hhead := h 0
      by_cases hx : x = id
      · rw [hx, List.count_cons_self, if_pos rfl, Nat.succ_mul]
        omega
      · rw [List.count_cons_of_ne hx, if_neg hx]
        omega

/-- A device without a tour has nothing counted. -/
theorem counted_eq_zero (h : id ∉ ids) : counted ids share id = 0 := by
  induction ids generalizing share with
  | nil => rfl
  | cons x rest ih =>
    obtain ⟨hx, hrest⟩ := not_or.1 (List.mem_cons.not.1 h)
    rw [counted, if_neg (Ne.symm hx), ih hrest]

/-- The count of a device that is requested once is the share of its tour. -/
theorem counted_of_nodup (h : ids.Nodup) (hplace : ids[place]? = some id) :
    counted ids share id = share place := by
  induction ids generalizing share place with
  | nil => cases hplace
  | cons x rest ih =>
    obtain ⟨hx, hrest⟩ := List.nodup_cons.1 h
    rw [counted]
    cases place with
    | zero =>
      obtain rfl : x = id := by simpa using hplace
      rw [if_pos rfl, counted_eq_zero hx]
      rfl
    | succ place =>
      have hmem : id ∈ rest := List.mem_of_getElem? hplace
      have hne : x ≠ id := fun heq => hx (heq ▸ hmem)
      rw [if_neg hne, ih hrest hplace, Nat.zero_add]

/-- One more slot of a tour is one more of its device, and of no other. -/
theorem counted_bump (hplace : ids[place]? = some id) (other : String) :
    counted ids (bump share place) other =
      counted ids share other + if other = id then 1 else 0 := by
  induction ids generalizing share place with
  | nil => cases hplace
  | cons x rest ih =>
    cases place with
    | zero =>
      obtain rfl : x = id := by simpa using hplace
      have htail : (fun p => bump share 0 (p + 1)) = fun p => share (p + 1) := by
        funext p
        exact if_neg (Nat.succ_ne_zero p).symm
      rw [counted, counted, htail]
      by_cases hx : x = other
      · simp only [hx, ↓reduceIte, bump]
        omega
      · simp only [hx, Ne.symm hx, ↓reduceIte]
        omega
    | succ place =>
      have htail : (fun p => bump share (place + 1) (p + 1)) =
          bump (fun p => share (p + 1)) place := by
        funext p
        simp [bump]
      have hhead : bump share (place + 1) 0 = share 0 := if_neg (Nat.succ_ne_zero place)
      rw [counted, counted, htail, hhead, ih hplace]
      omega

end Counted

section Sums

variable {ids : List String} {id : String} {f g : String → Nat}

/-- Sums over devices of two functions that differ at one device only. -/
theorem sum_change (hid : id ∈ ids) (h : ∀ x, x ≠ id → f x = g x) :
    ∑ x ∈ ids.toFinset, f x + g id = ∑ x ∈ ids.toFinset, g x + f id := by
  have hmem : id ∈ ids.toFinset := List.mem_toFinset.2 hid
  have hrest : ∑ x ∈ ids.toFinset.erase id, f x = ∑ x ∈ ids.toFinset.erase id, g x :=
    Finset.sum_congr rfl fun x hx => h x (Finset.ne_of_mem_erase hx)
  rw [← Finset.add_sum_erase _ f hmem, ← Finset.add_sum_erase _ g hmem, hrest]
  omega

/-- What is due of the devices when a tour has counted one more slot. -/
theorem sum_due_bump (cap : Nat) (share : Nat → Nat) {place : Nat} (hplace : ids[place]? = some id) :
    ∑ x ∈ ids.toFinset, max cap (counted ids (bump share place) x) +
        max cap (counted ids share id) =
      ∑ x ∈ ids.toFinset, max cap (counted ids share x) + max cap (counted ids share id + 1) := by
  have hself : counted ids (bump share place) id = counted ids share id + 1 := by
    rw [counted_bump hplace, if_pos rfl]
  rw [← hself]
  apply sum_change (List.mem_of_getElem? hplace)
  intro x hne
  rw [counted_bump hplace, if_neg hne, Nat.add_zero]

end Sums

namespace RunState

variable (s : RunState) (id other : String)

/-- The slots of a device that are counted as done. -/
def slotsDone (s : RunState) (id : String) : Nat :=
  ((s.device? id).getD .initial).completedSlots.toNat

/-- A change of the progress of a device is shown there alone. -/
theorem device?_updateDevice (f : DeviceProgress → DeviceProgress) :
    (s.updateDevice id f).device? other =
      if other = id then some (f ((s.device? id).getD .initial)) else s.device? other :=
  TextMap.get?_insert s.devices id _ other

/-- A device that shows something goes on to. -/
theorem isSome_device?_updateDevice (f : DeviceProgress → DeviceProgress)
    (h : (s.device? other).isSome = true) :
    ((s.updateDevice id f).device? other).isSome = true := by
  rw [device?_updateDevice]
  split
  · rfl
  · exact h

/-- No device is lost when a slot is counted. -/
theorem isSome_device?_completeSlot (h : (s.device? other).isSome = true) :
    ((s.completeSlot id).device? other).isSome = true :=
  s.isSome_device?_updateDevice id other
    (fun p => { p with completedSlots := p.completedSlots + 1 }) h

/-- No device is lost when one is written off. -/
theorem isSome_device?_writeOff (h : (s.device? other).isSome = true) :
    ((s.writeOff id).device? other).isSome = true :=
  isSome_device?_updateDevice _ id other _ (s.isSome_device?_updateDevice id other
    (fun p => { p with completedSlots := s.request.slotsPerDevice }) h)

/-- A slot that is counted is not shown at other devices. -/
theorem device?_completeSlot_of_ne (h : other ≠ id) :
    (s.completeSlot id).device? other = s.device? other :=
  TextMap.get?_insert_of_ne s.devices h _

/-- A slot that is counted is shown at its device. -/
theorem device?_completeSlot {p : DeviceProgress} (h : s.device? id = some p) :
    (s.completeSlot id).device? id =
      some { p with completedSlots := p.completedSlots + 1 } := by
  have hp : (s.device? id).getD .initial = p := by rw [h]; rfl
  exact hp ▸ TextMap.get?_insert_self s.devices id _

/-- A device that is written off is not shown at others. -/
theorem device?_writeOff_of_ne (h : other ≠ id) :
    (s.writeOff id).device? other = s.device? other := by
  rw [writeOff, device?_updateDevice, if_neg h]
  exact TextMap.get?_insert_of_ne s.devices h _

/-- A device that is written off has all of its slots counted, and has failed in part. -/
theorem device?_writeOff : ∃ p, (s.writeOff id).device? id = some p ∧
    p.completedSlots = s.request.slotsPerDevice ∧ p.status = .partiallyFailed := by
  have hsettled : (s.settleDevice id).device? id =
      some { (s.device? id).getD .initial with completedSlots := s.request.slotsPerDevice } :=
    TextMap.get?_insert_self s.devices id _
  rw [writeOff, device?_updateDevice, if_pos rfl, hsettled]
  exact ⟨_, rfl, rfl, rfl⟩

/-- To write a device off adds the slots that are missing. -/
theorem completedUnits_writeOff : (s.writeOff id).completedUnits =
    s.completedUnits + .ofNat (s.request.slotsPerDevice.toNat - s.slotsDone id) := rfl

/-- The slots done are those that a device shows. -/
theorem slotsDone_of_device? {p : DeviceProgress} (h : s.device? id = some p) :
    s.slotsDone id = p.completedSlots.toNat := by
  rw [slotsDone, h]
  rfl

/-- The slots done are told by what the device shows. -/
theorem slotsDone_congr {s' : RunState} (h : s'.device? id = s.device? id) :
    s'.slotsDone id = s.slotsDone id := by
  rw [slotsDone, h, slotsDone]

/-- A change that leaves the slots alone changes nothing about how many are done. -/
theorem slotsDone_updateDevice {f : DeviceProgress → DeviceProgress}
    (hf : ∀ p, (f p).completedSlots = p.completedSlots) :
    (s.updateDevice id f).slotsDone other = s.slotsDone other := by
  by_cases h : other = id
  · rw [slotsDone, device?_updateDevice, if_pos h, Option.getD_some, hf, h, slotsDone]
  · exact s.slotsDone_congr other (by rw [device?_updateDevice, if_neg h])

/-- A slot that is counted adds one, unless the word is full. -/
theorem slotsDone_completeSlot (h : s.slotsDone id + 1 < UInt32.size) :
    (s.completeSlot id).slotsDone id = s.slotsDone id + 1 := by
  have hself : (s.completeSlot id).device? id = some { (s.device? id).getD .initial with
      completedSlots := ((s.device? id).getD .initial).completedSlots + 1 } :=
    TextMap.get?_insert_self s.devices id _
  rw [slotsDone_of_device? _ _ hself, UInt32.toNat_add]
  exact Nat.mod_eq_of_lt h

/-- A device that is written off has all of its slots done. -/
theorem slotsDone_writeOff : (s.writeOff id).slotsDone id = s.request.slotsPerDevice.toNat := by
  obtain ⟨p, hp, hslots, -⟩ := s.device?_writeOff id
  rw [slotsDone_of_device? _ _ hp, hslots]

/-- A run that has not begun: all of its devices are before their first slots. -/
structure Fresh (s : RunState) : Prop where
  units : s.completedUnits = 0
  shows : ∀ id ∈ s.request.deviceIds, s.device? id = some .initial

/-- A run that is new is fresh. -/
theorem fresh_new (runId suiteId suiteName : String) (request : Request) (startedAt : Instant) :
    (new runId suiteId suiteName request startedAt).Fresh :=
  ⟨rfl, fun id hid =>
    (TextMap.get?_ofList_map request.deviceIds DeviceProgress.initial id).trans (if_pos hid)⟩

/-- In a fresh run no slot is done. -/
theorem Fresh.slotsDone {s : RunState} (h : s.Fresh) {id : String}
    (hid : id ∈ s.request.deviceIds) : s.slotsDone id = 0 :=
  s.slotsDone_of_device? id (h.shows id hid)

end RunState

end DeviceSuite
