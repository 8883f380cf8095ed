import DeviceSuite.Proofs.Artifact.Queue
import DeviceSuite.Proofs.Artifact.Ledger
import Mathlib.Data.List.Induction

/-!
# Saves brought at once

What holds of saves in any order holds of saves that are brought to a desk at once and whose tasks
take turns; and these go into the sink in the order of their requests. The tasks take turns in an
order of their own: those that have come out again mix with the others. But those that wait keep
their order among each other, and so do those that have not yet asked.
-/

namespace DeviceSuite

/-- The numbers with a property increase along a list. -/
def Increasing (P : Nat → Prop) (l : List Nat) : Prop := l.Pairwise fun a b => P a → P b → a < b

namespace Increasing

variable {P P' : Nat → Prop} {l : List Nat} {i j : Nat}

/-- A number that goes to the end of a list must be the largest there. -/
theorem rotate (h : Increasing P l) (hnodup : l.Nodup) (hP : ∀ j, j ≠ i → P' j → P j)
    (hlast : P' i → ∀ j, j ≠ i → P' j → j < i) : Increasing P' (l.erase i ++ [i]) := by
  have hne : ∀ j ∈ l.erase i, j ≠ i := fun j hj => (hnodup.mem_erase_iff.1 hj).1
  refine List.pairwise_append.2 ⟨?_, List.pairwise_singleton _ i, ?_⟩
  · refine (h.sublist List.erase_sublist).imp_of_mem fun ha hb hlt hPa hPb => ?_
    exact hlt (hP _ (hne _ ha) hPa) (hP _ (hne _ hb) hPb)
  · intro a ha b hb hPa hPb
    obtain rfl := List.mem_singleton.1 hb
    exact hlast hPb a (hne a ha) hPa

variable {C : Type} {R : C → Type} {α L σ : Type} {h : Host R α L σ} {p : Pool R α L σ}

/-- Numbers stay in order when those that are able go first, if the small ones are able before the
large ones. -/
theorem lineUp (hp : Increasing P p.order)
    (hable : ∀ i j, P i → P j → i < j → p.isAble h j = true → p.isAble h i = true) :
    Increasing P (p.lineUp h).order := by
  refine List.pairwise_append.2 ⟨hp.filter _, hp.filter _, fun a ha b hb hPa hPb => ?_⟩
  have ha := (List.mem_filter.1 ha).2
  have hb : p.isAble h b = false := by simpa using (List.mem_filter.1 hb).2
  rcases Nat.lt_trichotomy a b with hlt | rfl | hlt
  · exact hlt
  · cases ha.symm.trans hb
  · cases (hable b a hPb hPa hlt ha).symm.trans hb

/-- The next turn is of the smallest number that is able. -/
theorem next?_le (hp : Increasing P p.order) (hnext : p.next? h = some i) (hi : P i) (hj : P j)
    (hmem : j ∈ p.order) (hable : p.isAble h j = true) : i ≤ j := by
  obtain ⟨-, as, bs, horder, hbefore⟩ := List.find?_eq_some_iff_append.1 hnext
  rw [horder] at hp hmem
  rcases List.mem_append.1 hmem with hj' | hj'
  · have := hbefore j hj'
    simp [hable] at this
  · rcases List.mem_cons.1 hj' with rfl | hj'
    · exact Nat.le_refl _
    · exact Nat.le_of_lt (List.rel_of_pairwise_cons (List.pairwise_append.1 hp).2.1 hj' hi hj)

end Increasing

/-- Where all are able to go on, they keep their order. -/
theorem Pool.lineUp_of_able {C : Type} {R : C → Type} {α L σ : Type} {h : Host R α L σ}
    {p : Pool R α L σ} (hable : ∀ i ∈ p.order, p.isAble h i = true) : p.lineUp h = p := by
  have hall : p.order.filter (p.isAble h) = p.order := List.filter_eq_self.2 hable
  have hnone : (p.order.filter fun i => !p.isAble h i) = [] :=
    List.filter_eq_nil_iff.2 fun i hi => by simp [hable i hi]
  rw [lineUp, hall, hnone, List.append_nil]

namespace Saves

/-- The strand of a save that has not been requested. -/
def unasked (e : Save × Nat) : Nat × Strand Reply Receipt := (e.2, .ready (.ask e.1))

/-- A save that is brought joins the crew as the last, and has not asked yet. -/
theorem spawn_unasked (r : Saves) (brought : List (Save × Nat)) (e : Save × Nat) :
    Pool.spawn host ⟨r, brought.map unasked, List.range brought.length⟩ e.2 (.ready (.ask e.1)) =
      (⟨r, (brought ++ [e]).map unasked, List.range (brought ++ [e]).length⟩ : Crew) := by
  rw [List.map_append, List.length_append, List.length_singleton, List.range_succ, Pool.spawn,
    List.length_map]
  refine Pool.lineUp_of_able fun i hi => ?_
  rw [← List.range_succ, List.mem_range] at hi
  have hlt : i < (brought ++ [e]).length := by simpa using hi
  have hstrand : ((brought ++ [e]).map unasked)[i]? = some (unasked (brought ++ [e])[i]) := by
    rw [List.getElem?_map, List.getElem?_eq_getElem hlt, Option.map_some]
  exact (Option.any_eq_true _ _).2 ⟨_, List.map_append ▸ hstrand, rfl⟩

/-- The tasks of one save more. -/
theorem begin_concat (desk : ArtifactDesk Nat) (saves : List Save) (save : Save) :
    begin desk (saves ++ [save]) =
      (begin desk saves).spawn host saves.length (.ready (.ask save)) := by
  rw [begin, begin, List.zipIdx_append, List.foldl_append, Nat.zero_add]
  rfl

/-- The tasks as they are brought to the desk. -/
theorem begin_eq (desk : ArtifactDesk Nat) (saves : List Save) : begin desk saves =
    ⟨⟨0, desk, []⟩, saves.zipIdx.map unasked, List.range saves.zipIdx.length⟩ := by
  induction saves using List.reverseRecOn with
  | nil => rfl
  | append_singleton saves save ih =>
    rw [begin_concat, ih, List.zipIdx_append, Nat.zero_add]
    exact spawn_unasked _ saves.zipIdx (save, saves.length)

/-- Where the strand of a save stands, according to the ledger. -/
inductive Stands (size k q : Nat) (r : Saves) (i : Nat) (save : Save) :
    Strand Reply Receipt → Prop where
  | unasked (hi : q ≤ i) : Stands size k q r i save (.ready (.ask save))
  | waiting (hk : k ≤ i) (hq : i < q) : Stands size k q r i save (.waiting save (receive save))
  /-- As long as not all have asked, nobody comes out of the sink by the passing of time. -/
  | inSink {due : Nat} (hi : i ∈ r.inSink) (hdue : q < size → r.now < due) :
    Stands size k q r i save (.calling due save (receive save))
  | back {result : Option Receipt} (hi : i ∈ r.left) : Stands size k q r i save (.ended result)

/-- What a turn of one task moves: its save goes on by a step or more, and the others stay. -/
structure Moves (i k q : Nat) (r : Saves) (k' q' : Nat) (r' : Saves) : Prop where
  gone : k' = k ∨ i = k ∧ k' = k + 1
  asked : q' = q ∨ i = q ∧ q' = q + 1
  behind : i < k' ∨ k' = k ∧ i = q ∧ q' = q + 1
  inSink : ∀ j, j ≠ i → j ∈ r.inSink → j ∈ r'.inSink
  left : ∀ j ∈ r.left, j ∈ r'.left
  now : r'.now = r.now

variable {refusals : List (Option String)} {places size k m q k' m' q' i j : Nat} {r r' : Saves}
  {save : Save} {strand : Strand Reply Receipt}

/-- The others stand where they stood. -/
theorem Stands.others (h : Stands size k q r j save strand) (hm : Moves i k q r k' q' r')
    (hne : j ≠ i) : Stands size k' q' r' j save strand := by
  obtain ⟨hgone, hasked, -, hsink, hleft, hnow⟩ := hm
  cases h with
  | unasked hi => exact .unasked (by omega)
  | waiting hk hq => exact .waiting (by omega) (by omega)
  | inSink hi hdue => exact .inSink (hsink j hne hi) fun hlt => hnow ▸ hdue (by omega)
  | back hj => exact .back (hleft j hj)

/-- What comes of the strand of a save that goes on. -/
structure Goes (refusals : List (Option String)) (places size i k q : Nat) (r : Saves) (save : Save)
    (k' m' q' : Nat) (next : Saves × Strand Reply Receipt) : Prop where
  ledger : Ledger refusals places k' m' q' next.1
  moves : Moves i k q r k' q' next.1
  early : q' < size → k' = m'
  stands : Stands size k' q' next.1 i save next.2

namespace Ledger

variable (h : Ledger refusals places k m q r)
include h

/-- A save comes out of the sink with its own receipt. -/
theorem goesBack (size : Nat) (hi : i ∈ r.inSink) (hearly : q < size → m = q ∧ k = m)
    (save : Save) :
    ∃ m', Goes refusals places size i k q r save k m' q
      (r.back i save, .ended (some (r.receipt i save))) := by
  obtain ⟨m', hle, hledger⟩ := h.leave hi save
  have hplaced := hledger.placed_le
  have hleft : ∀ j, j ∈ r.left ∨ j = i → j ∈ (r.back i save).left := fun j hj => by
    rw [left_back, List.mem_append, List.mem_singleton]
    exact hj
  refine ⟨m', hledger, ⟨.inl rfl, .inl rfl, .inl (h.inSink_lt hi),
    fun j hne hj => mem_inSink_back.2 ⟨hj, hne⟩, fun j hj => hleft j (.inl hj), rfl⟩,
    fun hlt => ?_, .back (hleft i (.inr rfl))⟩
  have := hearly hlt
  omega

/-- A save that has a place goes into the sink. -/
theorem goesIn (size : Nat) (hk : k < m) (hearly : q < size → m = q ∧ k + 1 = m) (save : Save) :
    ∃ m', Goes refusals places size k k q r save (k + 1) m' q
      (host.resume k (.waiting save (receive save)) r) := by
  have hledger := h.enter hk
  have hnew : k ∉ r.left := fun hmem => Nat.lt_irrefl k (h.left_lt hmem)
  have hmem : k ∈ (r.gone k).inSink := by
    rw [hledger.mem_inSink_iff, left_gone]
    exact ⟨Nat.lt_succ_self k, hnew⟩
  have hmoves : Moves k k q r (k + 1) q (r.gone k) := by
    refine ⟨.inr ⟨rfl, rfl⟩, .inl rfl, .inl (Nat.lt_succ_self k), fun j _ hj => ?_,
      fun j hj => ?_, rfl⟩
    · rw [mem_inSink, left_gone, entered_gone]
      exact ⟨List.mem_append_left _ (mem_inSink.1 hj).1, (mem_inSink.1 hj).2⟩
    · exact left_gone.symm ▸ hj
  rw [Host.resume, take_eq]
  by_cases hzero : save.duration = 0
  · rw [if_pos hzero]
    obtain ⟨m', hgoes⟩ := hledger.goesBack size hmem hearly save
    obtain ⟨hledger', hmoves', hearly', hstands'⟩ := hgoes
    refine ⟨m', hledger', ⟨.inr ⟨rfl, rfl⟩, .inl rfl, .inl (Nat.lt_succ_self k), fun j hne hj => ?_,
      fun j hj => ?_, rfl⟩, hearly', hstands'⟩
    · exact hmoves'.inSink j hne (hmoves.inSink j hne hj)
    · exact hmoves'.left j (hmoves.left j hj)
  · rw [if_neg hzero]
    refine ⟨m, hledger, hmoves, fun hlt => (hearly hlt).2, .inSink hmem fun _ => ?_⟩
    change r.now < r.now + save.duration
    omega

/-- The next save asks for a place, and goes into the sink if it gets one. -/
theorem goesAsk (hearly : k = m) (save : Save) :
    ∃ k' m' q', Goes refusals places size q k q r save k' m' q' (host.carry q (.ask save) r) := by
  obtain ⟨m', hledger, hm'⟩ := h.ask
  have hgone := h.gone_le
  have hplaced := h.placed_le
  have hadmits : host.admits (r.asked q) q save = true ↔ m' = q + 1 := by
    have hout : q ∉ r.inSink := fun hmem => by
      have := h.inSink_lt hmem
      omega
    change (r.asked q).desk.queue.inside.contains q = true ↔ _
    rw [List.contains_iff_mem, hledger.serves.mem_inside]
    constructor
    · rintro (hmem | hlt)
      · exact absurd hmem hout
      · omega
    · exact fun heq => .inr (by omega)
  rw [carry_ask]
  split
  · next hin =>
    obtain rfl : m' = q + 1 := hadmits.1 hin
    obtain rfl : k = q := by omega
    obtain ⟨m'', hgoes⟩ := hledger.goesIn size (Nat.lt_succ_self k) (fun _ => ⟨rfl, rfl⟩) save
    obtain ⟨hledger', hmoves, hearly', hstands⟩ := hgoes
    exact ⟨k + 1, m'', k + 1, hledger', ⟨.inr ⟨rfl, rfl⟩, .inr ⟨rfl, rfl⟩,
      .inl (Nat.lt_succ_self k), hmoves.inSink, hmoves.left, hmoves.now⟩, hearly', hstands⟩
  · next hout =>
    have hsame : m' = m := by
      have := mt hadmits.2 hout
      omega
    exact ⟨k, m', q + 1, hledger, ⟨.inl rfl, .inr ⟨rfl, rfl⟩, .inr ⟨rfl, rfl, rfl⟩, fun _ _ => id,
      fun _ => id, rfl⟩, fun _ => by omega, .waiting (by omega) (Nat.lt_succ_self q)⟩

end Ledger

/-- How far the tasks of the saves have come: each stands where the ledger says, and those that have
not gone in yet stand in the order of their numbers. -/
structure Course (saves : List Save) (refusals : List (Option String)) (places k m q : Nat)
    (p : Crew) : Prop where
  ledger : Ledger refusals places k m q p.shared
  asked_le : q ≤ saves.length
  early : q < saves.length → k = m
  length : p.strands.length = saves.length
  stands : ∀ i save, saves[i]? = some save → ∃ strand, p.strands[i]? = some (i, strand) ∧
    Stands saves.length k q p.shared i save strand
  covers : p.Covers
  nodup : p.order.Nodup
  waiting : Increasing (fun i => k ≤ i ∧ i < q) p.order
  unasked : Increasing (q ≤ ·) p.order

namespace Course

variable {saves : List Save} {p p' : Crew}

section

variable (h : Course saves refusals places k m q p)
include h

/-- Where the strand at a position stands. -/
theorem stands_at (hi : i < saves.length) : ∃ save strand, saves[i]? = some save ∧
    p.strands[i]? = some (i, strand) ∧ Stands saves.length k q p.shared i save strand := by
  obtain ⟨strand, hstrand, hstands⟩ := h.stands i saves[i] (List.getElem?_eq_getElem hi)
  exact ⟨_, strand, List.getElem?_eq_getElem hi, hstrand, hstands⟩

/-- Those that have not asked are able to. -/
theorem isAble_unasked (hq : q ≤ i) (hi : i < saves.length) : p.isAble host i = true := by
  obtain ⟨save, strand, -, hstrand, hstands⟩ := h.stands_at hi
  have hkq := Nat.le_trans h.ledger.gone_le h.ledger.placed_le
  refine (Option.any_eq_true _ _).2 ⟨_, hstrand, ?_⟩
  cases hstands with
  | unasked => rfl
  | waiting _ hlt => omega
  | inSink hin => exact absurd (h.ledger.inSink_lt hin) (by omega)
  | back hj => exact absurd (h.ledger.left_lt hj) (by omega)

/-- Those that wait are able to go on when they have been given a place. -/
theorem isAble_waiting (hk : k ≤ i) (hq : i < q) : p.isAble host i = true ↔ i < m := by
  obtain ⟨save, strand, -, hstrand, hstands⟩ := h.stands_at (Nat.lt_of_lt_of_le hq h.asked_le)
  rw [Pool.isAble, hstrand, Option.any_some]
  cases hstands with
  | unasked hi => omega
  | waiting =>
    have hout : i ∉ p.shared.inSink := fun hmem => absurd (h.ledger.inSink_lt hmem) (by omega)
    change p.shared.desk.queue.inside.contains i = true ↔ _
    rw [List.contains_iff_mem, h.ledger.serves.mem_inside, or_iff_right hout, and_iff_right hk]
  | inSink hin => exact absurd (h.ledger.inSink_lt hin) (by omega)
  | back hj => exact absurd (h.ledger.left_lt hj) (by omega)

/-- The order of those who have not gone in is kept when the able ones go first. -/
theorem lineUp : Course saves refusals places k m q (p.lineUp host) := by
  refine ⟨h.ledger, h.asked_le, h.early, h.length, h.stands, h.covers.lineUp, ?_, ?_, ?_⟩
  · exact (List.filter_append_perm _ _).nodup_iff.2 h.nodup
  · refine h.waiting.lineUp fun i j hi hj hlt hable => ?_
    have hplace := (h.isAble_waiting hj.1 hj.2).1 hable
    exact (h.isAble_waiting hi.1 hi.2).2 (Nat.lt_trans hlt hplace)
  · refine h.unasked.lineUp fun i j hi _ hlt hable => ?_
    obtain ⟨e, hj, -⟩ := (Option.any_eq_true _ _).1 hable
    have hj := (List.getElem?_eq_some_iff.1 hj).1
    exact h.isAble_unasked hi (h.length ▸ Nat.lt_trans hlt hj)

/-- The clock moves when all have asked. -/
theorem atTime (hall : q = saves.length) (time : Nat) :
    Course saves refusals places k m q (p.change host (host.atTime time)) := by
  refine lineUp (p := { p with shared := { p.shared with now := time } }) ⟨h.ledger.atTime time,
    h.asked_le, h.early, h.length, fun i save hi => ?_, h.covers, h.nodup, h.waiting, h.unasked⟩
  obtain ⟨strand, hstrand, hstands⟩ := h.stands i save hi
  refine ⟨strand, hstrand, ?_⟩
  cases hstands with
  | unasked hq => exact .unasked hq
  | waiting hk hq => exact .waiting hk hq
  | inSink hin hdue => exact .inSink hin fun hlt => absurd hall (Nat.ne_of_lt hlt)
  | back hj => exact .back hj

/-- A strand that goes on and is put behind the others takes the saves on. -/
theorem goes {i : Nat} {save : Save} {next : Saves × Strand Reply Receipt}
    (hi : saves[i]? = some save)
    (hgoes : Goes refusals places saves.length i k q p.shared save k' m' q' next) :
    Course saves refusals places k' m' q'
      (Pool.lineUp host ⟨next.1, p.strands.set i (i, next.2), p.order.erase i ++ [i]⟩) := by
  obtain ⟨hledger, hmoves, hearly, hstands⟩ := hgoes
  have hsize := (List.getElem?_eq_some_iff.1 hi).1
  have hasked := hmoves.asked
  have hgone := hmoves.gone
  have hbehind := hmoves.behind
  have hkq' := Nat.le_trans hledger.gone_le hledger.placed_le
  have hle := h.asked_le
  refine lineUp ⟨hledger, by omega, hearly, ?_, fun j other hj => ?_, fun j hj => ?_, ?_, ?_, ?_⟩
  · rw [List.length_set, h.length]
  · rcases eq_or_ne j i with rfl | hne
    · cases hi.symm.trans hj
      exact ⟨next.2, List.getElem?_set_self (h.length ▸ hsize), hstands⟩
    · obtain ⟨strand, hstrand, hother⟩ := h.stands j other hj
      exact ⟨strand, (List.getElem?_set_ne hne.symm).trans hstrand, hother.others hmoves hne⟩
  · rw [List.length_set] at hj
    rcases eq_or_ne j i with rfl | hne
    · exact List.mem_append_right _ (List.mem_singleton_self _)
    · exact List.mem_append_left _ ((List.mem_erase_of_ne hne).2 (h.covers j hj))
  · refine List.nodup_append.2 ⟨h.nodup.erase i, List.pairwise_singleton _ i, ?_⟩
    rintro a ha b hb rfl
    exact (h.nodup.mem_erase_iff.1 ha).1 (List.mem_singleton.1 hb)
  · exact h.waiting.rotate h.nodup (fun j hne hj => by omega) fun hlast j hne hj => by omega
  · exact h.unasked.rotate h.nodup (fun j hne hj => by omega) fun hlast j hne hj => by omega

/-- A turn takes the saves on. -/
theorem turn (hnext : p.next? host = some i) :
    ∃ k' m' q', Course saves refusals places k' m' q' (p.turn host i) := by
  have hable := Pool.next?_isAble hnext
  obtain ⟨e, he, -⟩ := (Option.any_eq_true _ _).1 hable
  have hi : i < saves.length := h.length ▸ (List.getElem?_eq_some_iff.1 he).1
  obtain ⟨save, strand, hsave, hstrand, hstands⟩ := h.stands_at hi
  have hturn : p.turn host i = Pool.lineUp host ⟨(host.resume i strand p.shared).1,
      p.strands.set i (i, (host.resume i strand p.shared).2), p.order.erase i ++ [i]⟩ := by
    rw [Pool.turn, hstrand]
  rw [Pool.isAble, hstrand, Option.any_some] at hable
  suffices hgoes : ∃ k' m' q', Goes refusals places saves.length i k q p.shared save k' m' q'
      (host.resume i strand p.shared) by
    obtain ⟨k', m', q', hgoes⟩ := hgoes
    exact ⟨k', m', q', hturn ▸ h.goes hsave hgoes⟩
  cases hstands with
  | unasked hq =>
    -- The first that has not asked is able to, so it is the one whose turn it is.
    have hfirst : i ≤ q := h.unasked.next?_le hnext hq (Nat.le_refl q)
      (h.covers q (by rw [h.length]; omega)) (h.isAble_unasked (Nat.le_refl q) (by omega))
    obtain rfl : i = q := Nat.le_antisymm hfirst hq
    exact h.ledger.goesAsk (h.early hi) save
  | waiting hk hq =>
    have hplace : i < m := (h.isAble_waiting hk hq).1 (Pool.next?_isAble hnext)
    have hkq : k < q := Nat.lt_of_le_of_lt hk hq
    have hfirst : i ≤ k := h.waiting.next?_le hnext ⟨hk, hq⟩ ⟨Nat.le_refl k, hkq⟩
      (h.covers k (by rw [h.length]; omega))
      ((h.isAble_waiting (Nat.le_refl k) hkq).2 (by omega))
    obtain rfl : i = k := Nat.le_antisymm hfirst hk
    obtain ⟨m', hgoes⟩ := h.ledger.goesIn saves.length hplace
      (fun hlt => absurd (h.early hlt) (by omega)) save
    exact ⟨_, m', _, hgoes⟩
  | @inSink due hin hdue =>
    have hall : ¬ q < saves.length := fun hlt => by
      have hle : due ≤ p.shared.now := of_decide_eq_true hable
      have := hdue hlt
      omega
    obtain ⟨m', hgoes⟩ := h.ledger.goesBack saves.length hin (absurd · hall) save
    exact ⟨_, m', _, hgoes⟩
  | back => cases hable

/-- A step takes the saves on. -/
theorem step (hstep : p.step? host none (fun _ => false) = some p') :
    ∃ k' m' q', Course saves refusals places k' m' q' p' := by
  rw [Pool.step?] at hstep
  split at hstep
  · next i hnext =>
    cases hstep
    exact h.turn hnext
  · next hnone =>
    have hall : q = saves.length := by
      refine Nat.le_antisymm h.asked_le (Nat.le_of_not_lt fun hlt => ?_)
      have hsome := Pool.next?_isSome h.covers (h.isAble_unasked (Nat.le_refl q) hlt)
      rw [hnone] at hsome
      cases hsome
    obtain ⟨due, -, hstep⟩ := Option.bind_eq_some_iff.1 hstep
    obtain ⟨i, hnext, rfl⟩ := Option.map_eq_some_iff.1 hstep
    exact (h.atTime hall due).turn hnext

/-- The saves go in in their order. -/
theorem entered_prefix : p.shared.entered <+: List.range saves.length := by
  have hle : k ≤ saves.length :=
    Nat.le_trans h.ledger.gone_le (Nat.le_trans h.ledger.placed_le h.asked_le)
  rw [h.ledger.entered, ← Nat.min_eq_left hle, ← List.take_range]
  exact List.take_prefix _ _

end

/-- Before the first turn nobody has asked. -/
theorem begin (places : Nat) (delay : Context → Artifact → Nat)
    (refusals : List (Option String)) (saves : List Save) :
    Course saves refusals (max 1 places) 0 0 0 (begin (.new places delay refusals) saves) := by
  rw [begin_eq]
  have hlength : (saves.zipIdx.map Saves.unasked).length = saves.length := by
    rw [List.length_map, List.length_zipIdx]
  refine ⟨.begin delay, Nat.zero_le _, fun _ => rfl, hlength, fun i save hi => ?_, fun i hi => ?_,
    List.nodup_range, ?_, ?_⟩
  · refine ⟨_, ?_, .unasked (Nat.zero_le i)⟩
    rw [List.getElem?_map, List.getElem?_zipIdx, hi, Nat.zero_add]
    rfl
  · exact List.mem_range.2 (by rwa [hlength, ← List.length_zipIdx] at hi)
  · exact List.pairwise_of_forall fun _ _ hi => absurd hi.2 (Nat.not_lt_zero _)
  · exact List.pairwise_lt_range.imp fun hlt _ _ => hlt

end Course

/-- Saves get further by a turn. -/
def Turns (p p' : Crew) : Prop := p.step? host none (fun _ => false) = some p'

/-- The course of the saves goes on through any turns. -/
theorem Course.turns {saves : List Save} {p p' : Crew} (hp : Course saves refusals places k m q p)
    (h : Relation.ReflTransGen Turns p p') :
    ∃ k' m' q', Course saves refusals places k' m' q' p' := by
  induction h with
  | refl => exact ⟨k, m, q, hp⟩
  | tail _ hturn ih =>
    obtain ⟨_, _, _, hcourse⟩ := ih
    exact hcourse.step hturn

/-- Saves that are all brought at once have been brought. -/
theorem Scene.Reached.begin (desk : ArtifactDesk Nat) (saves : List Save) :
    Scene.Reached desk ⟨saves, [], begin desk saves⟩ := by
  induction saves using List.reverseRecOn with
  | nil => exact .refl
  | append_singleton saves save ih => exact begin_concat desk saves save ▸ ih.tail (.bring _ save)

/-- A scene is reached through any turns. -/
theorem Scene.Reached.turns {desk : ArtifactDesk Nat} {saves : List Save} {p p' : Crew}
    {asked : List Nat} (h : Scene.Reached desk ⟨saves, asked, p⟩)
    (hturns : Relation.ReflTransGen Turns p p') :
    ∃ asked', Scene.Reached desk ⟨saves, asked', p'⟩ := by
  induction hturns with
  | refl => exact ⟨asked, h⟩
  | tail _ hturn ih =>
    obtain ⟨_, hreached⟩ := ih
    exact hreached.step hturn

/-- However long the saves take, whatever they hold, whichever of them are refused, whenever they
are brought and whoever goes on first: there are never more saves in the sink than places, and
just as many while somebody waits and nobody is able to go on; places are given away in the order
of the requests; and in the end each save has gone in and come out once and has its own receipt,
and all places are free. Saves that are brought at once go in in their order when their tasks take
turns. -/
theorem saves_in_order (places : Nat) (delay : Context → Artifact → Nat)
    (refusals : List (Option String)) :
    (∀ s : Scene, s.Reached (.new places delay refusals) → Orderly (max 1 places) s ∧
      Over refusals (max 1 places) s.saves (s.crew.run host none fun _ => false)) ∧
    ∀ saves p, Relation.ReflTransGen Turns (begin (.new places delay refusals) saves) p →
      (∃ asked, Scene.Reached (.new places delay refusals) ⟨saves, asked, p⟩) ∧
        p.shared.entered <+: List.range saves.length := by
  refine ⟨fun s hs => ⟨hs.consistent.orderly, hs.settled⟩, fun saves p hp => ⟨?_, ?_⟩⟩
  · exact (Scene.Reached.begin _ saves).turns hp
  · obtain ⟨_, _, _, hcourse⟩ := (Course.begin places delay refusals saves).turns hp
    exact hcourse.entered_prefix

/-- Two saves of the same artifact, the second of which takes no time. -/
def couple : List Save :=
  let context : Context := .forDevice "run" "report" "device"
  let artifact : Artifact := ⟨.failureScreenshot, none, "shot.png", [0]⟩
  [⟨context, artifact, 5⟩, ⟨context, artifact, 0⟩]

/-- With one place, the second of them waits while the first, which will be refused, is in the
sink. -/
theorem saves_in_order_couple :
    let desk : ArtifactDesk Nat := .new 0 (fun _ _ => 0) [some "disk full"]
    ∃ s : Scene, s.Reached desk ∧ s.saves = couple ∧ s.crew.shared.desk.queue.waiting = [1] ∧
      s.crew.shared.inSink = [0] ∧ Orderly 1 s ∧
      Over [some "disk full"] 1 couple (s.crew.run host none fun _ => false) ∧
      s.crew.shared.entered <+: [0, 1] := by
  intro desk
  obtain ⟨hreached, hturns⟩ := saves_in_order 0 (fun _ _ => 0) [some "disk full"]
  have hfirst : Turns (begin desk couple) ((begin desk couple).turn host 0) := rfl
  have hsecond : Turns ((begin desk couple).turn host 0)
      (((begin desk couple).turn host 0).turn host 1) := rfl
  obtain ⟨⟨asked, hscene⟩, hentered⟩ := hturns couple _ (.tail (.single hfirst) hsecond)
  obtain ⟨horderly, hover⟩ := hreached _ hscene
  exact ⟨_, hscene, rfl, rfl, rfl, horderly, hover, hentered⟩

end Saves

end DeviceSuite
