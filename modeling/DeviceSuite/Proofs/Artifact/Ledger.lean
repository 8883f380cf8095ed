import DeviceSuite.Proofs.Artifact.Traffic

/-!
# The ledger of saves

Saves are numbered in the order of their requests, so three numbers tell how far they have come:
how many have gone into the sink, how many have been given a place, and how many have asked for
one. Those below the first have gone in, those from there up to the second are on their way, and
those up to the third wait. A request, an entry and an exit each move these numbers on, and never
are there more saves in the sink than places.
-/

namespace DeviceSuite

namespace PlaceQueue

variable {q : PlaceQueue Nat} {inner : Nat → Prop} {k m r i : Nat}

/-- A queue that is served by number. The places are held by the inner ones and by those from `k` up
to `m`, and those from there up to `r` wait. Nobody waits while there is a free place. -/
structure Serves (q : PlaceQueue Nat) (inner : Nat → Prop) (k m r : Nat) : Prop where
  nodup : q.inside.Nodup
  mem_inside : ∀ i, i ∈ q.inside ↔ inner i ∨ k ≤ i ∧ i < m
  waiting : q.waiting = List.range' m (r - m)
  length_le : q.inside.length ≤ q.capacity
  full : m < r → q.inside.length = q.capacity

/-- Nobody has asked for a place of a new queue, so it serves nobody. -/
theorem serves_ofPlaces (places : Nat) :
    (ofPlaces (L := Nat) places).Serves (fun _ => False) 0 0 0 where
  nodup := List.nodup_nil
  mem_inside i := by simp [ofPlaces]
  waiting := rfl
  length_le := Nat.zero_le _
  full h := absurd h (Nat.lt_irrefl 0)

/-- Letting in serves the next in line, as many as there are free places. -/
theorem serves_letIn (hkm : k ≤ m) (hmr : m ≤ r) (hnodup : q.inside.Nodup)
    (hinner : ∀ i, inner i → i < k) (hmem : ∀ i, i ∈ q.inside ↔ inner i ∨ k ≤ i ∧ i < m)
    (hwaiting : q.waiting = List.range' m (r - m)) (hlength : q.inside.length ≤ q.capacity) :
    q.letIn.Serves inner k (m + min (q.capacity - q.inside.length) (r - m)) r := by
  generalize hfree : q.capacity - q.inside.length = free
  have htake : q.waiting.take free = List.range' m (min free (r - m)) := by
    rw [hwaiting]
    rcases Nat.le_total free (r - m) with hle | hle
    · rw [List.take_range'_of_length_ge hle, Nat.min_eq_left hle]
    · rw [List.take_range'_of_length_le hle, Nat.min_eq_right hle]
  have hinside : q.letIn.inside = q.inside ++ List.range' m (min free (r - m)) := by
    rw [← htake, letIn, hfree]
  constructor
  · rw [hinside]
    refine List.nodup_append.2 ⟨hnodup, List.nodup_range' 1, ?_⟩
    rintro a ha b hb rfl
    have hlow := (List.mem_range'_1.1 hb).1
    rcases (hmem a).1 ha with hin | ⟨-, hlt⟩
    · have := hinner a hin
      omega
    · omega
  · intro i
    rw [hinside, List.mem_append, hmem, List.mem_range'_1, or_assoc]
    apply or_congr_right
    omega
  · have hwaits : q.letIn.waiting = q.waiting.drop free := by rw [letIn, hfree]
    rw [hwaits, hwaiting, List.drop_range', Nat.mul_one]
    rcases Nat.le_total free (r - m) with hle | hle
    · rw [Nat.min_eq_left hle, Nat.sub_sub]
    · rw [Nat.min_eq_right hle, Nat.sub_eq_zero_of_le hle, Nat.add_sub_cancel' hmr, Nat.sub_self,
        List.range'_zero, List.range'_zero]
  · rw [hinside, List.length_append, List.length_range']
    change _ ≤ q.capacity
    omega
  · intro hlt
    rw [hinside, List.length_append, List.length_range']
    change _ = q.capacity
    omega

variable (h : q.Serves inner k m r) (hkm : k ≤ m) (hmr : m ≤ r) (hinner : ∀ i, inner i → i < k)
include h hkm hmr hinner

/-- The next number that asks to be let in waits, or holds a place if there is a free one. -/
theorem Serves.request : ∃ m', (q.request r).Serves inner k m' (r + 1) ∧
    (m' = m ∨ m = r ∧ m' = r + 1) := by
  have hwaiting : q.waiting ++ [r] = List.range' m (r + 1 - m) := by
    rw [h.waiting, Nat.succ_sub hmr, List.range'_1_concat, Nat.add_sub_cancel' hmr]
  refine ⟨_, serves_letIn (q := { q with waiting := q.waiting ++ [r] }) hkm (Nat.le_succ_of_le hmr)
    h.nodup hinner h.mem_inside hwaiting h.length_le, ?_⟩
  rcases Nat.lt_or_eq_of_le hmr with hlt | rfl
  · have hfull := h.full hlt
    dsimp only
    omega
  · dsimp only
    omega

/-- When an inner one leaves, its place goes to the next in line. -/
theorem Serves.leave (hi : inner i) : ∃ m', m ≤ m' ∧ m' ≤ r ∧
    (q.leave i).Serves (fun j => inner j ∧ j ≠ i) k m' r := by
  have hmem : i ∈ q.inside := (h.mem_inside i).2 (.inl hi)
  refine ⟨_, Nat.le_add_right m _, ?_, serves_letIn (q := { q with inside := q.inside.erase i }) hkm
    hmr (h.nodup.erase i) (fun j hj => hinner j hj.1) (fun j => ?_) h.waiting ?_⟩
  · omega
  · have hlow := hinner i hi
    rw [h.nodup.mem_erase_iff, h.mem_inside, and_comm, or_and_right]
    apply or_congr_right
    constructor
    · exact And.left
    · intro hj
      exact ⟨hj, by omega⟩
  · exact Nat.le_trans List.length_erase_le h.length_le

omit hkm hmr hinner

/-- Whoever has a place may go on to become one of the inner ones. -/
theorem Serves.enter (hk : k < m) : q.Serves (fun i => inner i ∨ i = k) (k + 1) m r where
  nodup := h.nodup
  mem_inside i := by
    rw [h.mem_inside, or_assoc]
    apply or_congr_right
    omega
  waiting := h.waiting
  length_le := h.length_le
  full := h.full

end PlaceQueue

namespace Saves

/-- The traffic of saves that are served by number, and how far it has come: how many have gone in,
how many have been given a place, and how many have asked for one. -/
structure Ledger (refusals : List (Option String)) (places k m q : Nat) (r : Saves) : Prop where
  traffic : Traffic refusals places r
  entered : r.entered = List.range k
  gone_le : k ≤ m
  placed_le : m ≤ q
  serves : r.desk.queue.Serves (· ∈ r.inSink) k m q

namespace Ledger

variable {refusals : List (Option String)} {places k m q i : Nat} {r : Saves} {save : Save}

/-- At the beginning all accounts are at nought. -/
theorem begin (delay : Context → Artifact → Nat) :
    Ledger refusals (max 1 places) 0 0 0 ⟨0, .new places delay refusals, []⟩ where
  traffic := .begin delay
  entered := rfl
  gone_le := Nat.le_refl 0
  placed_le := Nat.le_refl 0
  serves := by
    have hinner : (fun i => i ∈ inSink ⟨0, .new places delay refusals, []⟩) = fun _ => False := by
      simp [inSink, Saves.entered]
    rw [hinner]
    exact PlaceQueue.serves_ofPlaces places

variable (h : Ledger refusals places k m q r)
include h

/-- Those who have come out have gone in. -/
theorem left_lt (hi : i ∈ r.left) : i < k :=
  List.mem_range.1 (h.entered ▸ h.traffic.left_mem i hi)

/-- The saves that the sink has at the moment are those that have gone in and have not come out. -/
theorem mem_inSink_iff : i ∈ r.inSink ↔ i < k ∧ i ∉ r.left := by
  rw [mem_inSink, h.entered, List.mem_range]

/-- A save that the sink has at the moment has gone in. -/
theorem inSink_lt (hi : i ∈ r.inSink) : i < k := (h.mem_inSink_iff.1 hi).1

/-- The passing of time does not touch the accounts. -/
theorem atTime (time : Nat) : Ledger refusals places k m q { r with now := time } :=
  ⟨h.traffic.atTime time, h.entered, h.gone_le, h.placed_le, h.serves⟩

/-- A request puts the next save in the line. -/
theorem ask : ∃ m', Ledger refusals places k m' (q + 1) (r.asked q) ∧
    (m' = m ∨ m = q ∧ m' = q + 1) := by
  have hgone := h.gone_le
  have hplaced := h.placed_le
  have hout : q ∉ r.desk.queue.line := by
    rw [PlaceQueue.mem_line, h.serves.mem_inside, h.serves.waiting, List.mem_range'_1]
    rintro ((hin | hway) | hwaits)
    · have := h.inSink_lt hin
      omega
    · omega
    · omega
  obtain ⟨m', hserves, hm'⟩ := h.serves.request h.gone_le h.placed_le fun i => h.inSink_lt
  exact ⟨m', ⟨h.traffic.ask hout, h.entered, by omega, by omega, hserves⟩, hm'⟩

/-- The next save on its way goes into the sink. -/
theorem enter (hk : k < m) : Ledger refusals places (k + 1) m q (r.gone k) := by
  have hnew : k ∉ r.entered := by simp [h.entered]
  have hplace : k ∈ r.desk.queue.inside := (h.serves.mem_inside k).2 (.inr ⟨Nat.le_refl k, hk⟩)
  have hout : k ∉ r.left := fun hmem => Nat.lt_irrefl k (h.left_lt hmem)
  refine ⟨h.traffic.enter hplace hnew, ?_, hk, h.placed_le, ?_⟩
  · rw [entered_gone, h.entered, List.range_succ]
  · simpa only [inSink_gone hout, List.mem_append, List.mem_singleton] using h.serves.enter hk

/-- A save that comes out of the sink leaves its place to the next in line. -/
theorem leave (hi : i ∈ r.inSink) (save : Save) :
    ∃ m', m ≤ m' ∧ Ledger refusals places k m' q (r.back i save) := by
  obtain ⟨m', hle, hplaced, hleave⟩ :=
    h.serves.leave h.gone_le h.placed_le (fun _ => h.inSink_lt) hi
  refine ⟨m', hle, h.traffic.leave hi save, entered_back.trans h.entered,
    Nat.le_trans h.gone_le hle, hplaced, ?_⟩
  simpa only [mem_inSink_back, ArtifactDesk.save_queue] using hleave

end Ledger

end Saves

end DeviceSuite
