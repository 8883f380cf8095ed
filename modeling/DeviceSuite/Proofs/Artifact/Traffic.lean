import DeviceSuite.Artifact.Saves
import DeviceSuite.Proofs.Artifact.Line
import Mathlib.Data.List.Nodup
import Mathlib.Data.List.Perm.Subperm

/-!
# The traffic of a sink

Whoever asks for a place goes to the end of the line, whoever has one may go into the sink, and
whoever comes out of it leaves the place to the next in line. In whatever order this happens, nobody
is in the sink without a place, nobody goes in or comes out twice, and what has been written down
tells how many are inside.
-/

namespace DeviceSuite

namespace PlaceQueue

variable {L : Type} {q : PlaceQueue L}

/-- No more are let in than there are places. -/
theorem length_letIn_le (h : q.inside.length ≤ q.capacity) :
    q.letIn.inside.length ≤ q.capacity := by
  simp only [letIn, List.length_append, List.length_take]
  omega

end PlaceQueue

namespace ArtifactDesk

/-- What becomes of the save that leaves the sink after so many others. -/
def verdict (refusals : List (Option String)) (earlier : Nat) (c : Context) (a : Artifact) :
    Except ArtifactError SavedArtifact :=
  match refusals[earlier]?.join with
  | some message => .error (.write message)
  | none => ArtifactSink.receipt c a

variable {L : Type} [BEq L] (d : ArtifactDesk L) (l : L) (c : Context) (a : Artifact)

/-- The receipt of a save is what its refusal, if there is one left, and its content say. -/
theorem save_verdict {refusals : List (Option String)} {earlier : Nat}
    (h : d.refusals = refusals.drop earlier) :
    (d.save l c a).2 = verdict refusals earlier c a := by
  rw [verdict, ← List.head?_drop, ← h]
  cases hnext : d.refusals.head?.join <;> simp only [save, put, hnext]

end ArtifactDesk

namespace Saves

/-- Those who have gone into the sink, in their order. -/
def entered (r : Saves) : List Nat := (r.log.filter fun e => e.2.2).map fun e => e.2.1

/-- Those who have come out of the sink, in their order. -/
def left (r : Saves) : List Nat := (r.log.filter fun e => !e.2.2).map fun e => e.2.1

/-- Those who are in the sink. -/
def inSink (r : Saves) : List Nat := r.entered.filter fun i => i ∉ r.left

/-- A request to save has been made. -/
abbrev asked (r : Saves) (i : Nat) : Saves := { r with desk := r.desk.request i }

/-- A save has gone into the sink. -/
abbrev gone (r : Saves) (i : Nat) : Saves := { r with log := r.log ++ [(r.now, i, true)] }

/-- A save has come out of the sink. -/
abbrev back (r : Saves) (i : Nat) (save : Save) : Saves :=
  { r with
    desk := (r.desk.save i save.context save.artifact).1
    log := r.log ++ [(r.now, i, false)] }

variable {r : Saves} {i j : Nat} {save : Save}

/-- A save that goes in is written down as the last that has entered. -/
@[simp] theorem entered_gone : (r.gone i).entered = r.entered ++ [i] := by simp [entered]

/-- A save that goes in has not left. -/
@[simp] theorem left_gone : (r.gone i).left = r.left := by simp [left]

/-- A save that comes out has entered before. -/
@[simp] theorem entered_back : (r.back i save).entered = r.entered := by simp [entered]

/-- A save that comes out is written down as the last that has left. -/
@[simp] theorem left_back : (r.back i save).left = r.left ++ [i] := by simp [left]

/-- The sink has the saves that have entered and not left. -/
theorem mem_inSink : i ∈ r.inSink ↔ i ∈ r.entered ∧ i ∉ r.left := by simp [inSink]

/-- A save that goes in is in the sink as the last. -/
theorem inSink_gone (hout : i ∉ r.left) : (r.gone i).inSink = r.inSink ++ [i] := by
  simp [inSink, hout]

/-- A save that comes out is in the sink no more. -/
theorem mem_inSink_back : j ∈ (r.back i save).inSink ↔ j ∈ r.inSink ∧ j ≠ i := by
  simp [mem_inSink, and_assoc]

/-- A save that comes out leaves the queue. -/
theorem queue_back : (r.back i save).desk.queue = r.desk.queue.leave i := ArtifactDesk.save_queue ..

/-- One more entry of the log moves the number inside by one, and the peak with it. -/
theorem tally_append (log : List (Nat × Nat × Bool)) (e : Nat × Nat × Bool) :
    tally (log ++ [e]) =
      let inside := if e.2.2 then (tally log).2 + 1 else (tally log).2 - 1
      ((tally log).1 ++ [inside], inside) := by
  rw [tally, List.foldl_append]
  rfl

/-- What is written down of saves at a desk with so many places, and what the queue knows of it.
Whoever is in the sink has a place; everybody goes in once and comes out once. -/
structure Traffic (refusals : List (Option String)) (places : Nat) (r : Saves) : Prop where
  queue : r.desk.queue.Orderly
  capacity : r.desk.queue.capacity = places
  length_le : r.desk.queue.inside.length ≤ places
  entered : r.entered.Nodup
  left : r.left.Nodup
  left_mem : ∀ i ∈ r.left, i ∈ r.entered
  placed : ∀ i ∈ r.inSink, i ∈ r.desk.queue.inside
  count : (tally r.log).2 = r.inSink.length
  peak : ∀ count ∈ r.occupancy, count ≤ places
  refusals : r.desk.refusals = refusals.drop r.left.length

namespace Traffic

variable {refusals : List (Option String)} {places : Nat}

/-- At the beginning there is no traffic. -/
theorem begin (delay : Context → Artifact → Nat) :
    Traffic refusals (max 1 places) ⟨0, .new places delay refusals, []⟩ where
  queue := PlaceQueue.orderly_ofPlaces places
  capacity := rfl
  length_le := Nat.zero_le _
  entered := List.nodup_nil
  left := List.nodup_nil
  left_mem := nofun
  placed := nofun
  count := rfl
  peak := nofun
  refusals := rfl

variable (h : Traffic refusals places r)
include h

/-- No save is inside twice. -/
theorem nodup_inside : r.desk.queue.inside.Nodup := h.queue.nodup.of_append_left

/-- No save is in the sink twice. -/
theorem nodup_inSink : r.inSink.Nodup := h.entered.filter _

/-- There are no more saves in the sink than places. -/
theorem inSink_le : r.inSink.length ≤ places :=
  Nat.le_trans (h.nodup_inSink.subperm h.placed).length_le h.length_le

/-- While somebody waits, all places are given away. -/
theorem inside_eq (hwaits : r.desk.queue.waiting ≠ []) : r.desk.queue.inside.length = places :=
  Nat.le_antisymm h.length_le (h.capacity ▸ h.queue.full hwaits)

/-- There have never been more saves in the sink at once than there are places. -/
theorem peak_le : r.peak ≤ places := by
  have hfold : ∀ (counts : List Nat) (most : Nat), most ≤ places →
      (∀ count ∈ counts, count ≤ places) → counts.foldl max most ≤ places := by
    intro counts
    induction counts with
    | nil => exact fun most hmost _ => hmost
    | cons count rest ih =>
      intro most hmost hcounts
      obtain ⟨hcount, hrest⟩ := List.forall_mem_cons.1 hcounts
      exact ih _ (Nat.max_le.2 ⟨hmost, hcount⟩) hrest
  exact hfold _ 0 (Nat.zero_le places) h.peak

/-- The passing of time is no traffic. -/
theorem atTime (time : Nat) : Traffic refusals places { r with now := time } :=
  ⟨h.queue, h.capacity, h.length_le, h.entered, h.left, h.left_mem, h.placed, h.count, h.peak,
    h.refusals⟩

/-- Somebody asks for a place. -/
theorem ask (hi : i ∉ r.desk.queue.line) : Traffic refusals places (r.asked i) where
  queue := h.queue.request hi
  capacity := h.capacity
  length_le := by
    have hle : r.desk.queue.inside.length ≤ r.desk.queue.capacity := h.capacity ▸ h.length_le
    exact h.capacity ▸ PlaceQueue.length_letIn_le
      (q := { r.desk.queue with waiting := r.desk.queue.waiting ++ [i] }) hle
  entered := h.entered
  left := h.left
  left_mem := h.left_mem
  placed j hj := PlaceQueue.inside_letIn (h.placed j hj)
  count := h.count
  peak := h.peak
  refusals := h.refusals

/-- Somebody who has a place goes into the sink. -/
theorem enter (hi : i ∈ r.desk.queue.inside) (hnew : i ∉ r.entered) :
    Traffic refusals places (r.gone i) := by
  have hout : i ∉ r.left := fun hmem => hnew (h.left_mem i hmem)
  have hsink := inSink_gone hout
  have hplaced : ∀ j ∈ (r.gone i).inSink, j ∈ r.desk.queue.inside := by
    rw [hsink]
    exact List.forall_mem_append.2 ⟨h.placed, List.forall_mem_singleton.2 hi⟩
  have hentered : (r.gone i).entered.Nodup := by
    rw [entered_gone]
    exact h.entered.append (List.nodup_singleton i) (List.disjoint_singleton.2 hnew)
  have htally : tally (r.gone i).log =
      ((tally r.log).1 ++ [(r.gone i).inSink.length], (r.gone i).inSink.length) := by
    rw [tally_append, h.count, hsink, List.length_append]
    rfl
  refine ⟨h.queue, h.capacity, h.length_le, hentered, ?_, ?_, hplaced, ?_, ?_, ?_⟩
  · exact left_gone.symm ▸ h.left
  · rw [left_gone, entered_gone]
    exact fun j hj => List.mem_append_left _ (h.left_mem j hj)
  · rw [htally]
  · rw [occupancy, htally]
    refine List.forall_mem_append.2 ⟨h.peak, List.forall_mem_singleton.2 ?_⟩
    exact Nat.le_trans ((hentered.filter _).subperm hplaced).length_le h.length_le
  · exact left_gone.symm ▸ h.refusals

/-- Somebody comes out of the sink and leaves the place to the next in line. -/
theorem leave (hi : i ∈ r.inSink) (save : Save) : Traffic refusals places (r.back i save) := by
  obtain ⟨hin, hout⟩ := mem_inSink.1 hi
  have hcount : (r.back i save).inSink.length = r.inSink.length - 1 := by
    have hnodup : (r.back i save).inSink.Nodup := (entered_back.symm ▸ h.entered).filter _
    have hperm : (r.back i save).inSink.Perm (r.inSink.erase i) :=
      (List.perm_ext_iff_of_nodup hnodup (h.nodup_inSink.erase i)).2 fun j => by
        rw [mem_inSink_back, h.nodup_inSink.mem_erase_iff, and_comm]
    rw [hperm.length_eq, List.length_erase_of_mem hi]
  have htally : tally (r.back i save).log =
      ((tally r.log).1 ++ [(r.back i save).inSink.length], (r.back i save).inSink.length) := by
    rw [tally_append, h.count, hcount]
    rfl
  have hle : (r.desk.queue.inside.erase i).length ≤ r.desk.queue.capacity :=
    Nat.le_trans List.length_erase_le (h.capacity ▸ h.length_le)
  constructor
  case queue => exact queue_back ▸ h.queue.leave i
  case capacity => exact queue_back ▸ h.capacity
  case length_le =>
    rw [queue_back, ← h.capacity]
    exact PlaceQueue.length_letIn_le (q := { r.desk.queue with inside := _ }) hle
  case entered => exact entered_back.symm ▸ h.entered
  case left =>
    rw [left_back]
    exact h.left.append (List.nodup_singleton i) (List.disjoint_singleton.2 hout)
  case left_mem =>
    rw [left_back, entered_back]
    exact List.forall_mem_append.2 ⟨h.left_mem, List.forall_mem_singleton.2 hin⟩
  case placed =>
    intro j hj
    obtain ⟨hj, hne⟩ := mem_inSink_back.1 hj
    exact queue_back ▸ PlaceQueue.inside_leave (h.placed j hj) hne
  case count => rw [htally]
  case peak =>
    rw [occupancy, htally]
    refine List.forall_mem_append.2 ⟨h.peak, List.forall_mem_singleton.2 ?_⟩
    exact hcount ▸ Nat.le_trans (Nat.sub_le _ _) h.inSink_le
  case refusals =>
    rw [ArtifactDesk.save_refusals, h.refusals, left_back, List.length_append, List.tail_drop]
    rfl

end Traffic

end Saves

end DeviceSuite
