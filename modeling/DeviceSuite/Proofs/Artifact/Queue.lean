import DeviceSuite.Proofs.Artifact.Traffic
import DeviceSuite.Proofs.Task.Standstill
import Mathlib.Logic.Relation

/-!
# Saves in any order

Saves may be brought at any time, and of the tasks that are able to go on any may be the next.
Whatever comes of that, places are given away in the order in which they are asked for, never more
saves are in the sink than there are places, and no place is lost: once all tasks have gone on as
far as they can, every save has gone in and come out once and has its own receipt.
-/

namespace DeviceSuite

namespace Saves

/-- The tasks of saves. -/
abbrev Crew := Pool Reply Receipt Nat Saves

/-- What a task does with the reply to its request. -/
def receive (save : Save) : Option (Reply save) → Task Reply Receipt
  | some receipt => .done receipt
  | none => .crash

/-- The task of a save is one call. -/
theorem ask_eq (save : Save) :
    (Task.ask save : Task Reply Receipt) = .call save (receive save) := by
  rw [Task.ask]
  congr 1
  funext reply
  cases reply <;> rfl

/-- The receipt of a save that comes out of the sink. -/
def receipt (r : Saves) (i : Nat) (save : Save) : Receipt :=
  (r.desk.save i save.context save.artifact).2

/-- Whoever is admitted goes into the sink, and comes out at once if that takes no time. -/
theorem take_eq (r : Saves) (i : Nat) (save : Save) : host.take r i save =
    if save.duration = 0 then ((r.gone i).back i save, .inr (some ((r.gone i).receipt i save)))
    else (r.gone i, .inl (r.now + save.duration)) := rfl

/-- Whoever asks goes in at once if he is admitted, and waits if he is not. -/
theorem carry_ask (r : Saves) (i : Nat) (save : Save) : host.carry i (.ask save) r =
    if host.admits (r.asked i) i save then
      host.resume i (.waiting save (receive save)) (r.asked i)
    else (r.asked i, .waiting save (receive save)) := by
  rw [ask_eq, Host.carry, Host.resume]
  change (if host.admits (r.asked i) i save then _ else _) = _
  congr 1

/-- The saves that have been brought, the numbers of those who have asked for a place, in the
order of their requests, and their tasks. -/
structure Scene where
  saves : List Save
  asked : List Nat
  crew : Crew

/-- Nothing has been brought to a desk. -/
def Scene.start (desk : ArtifactDesk Nat) : Scene := ⟨[], [], .empty ⟨0, desk, []⟩⟩

/-- The task at a position asks for a place when it goes on for the first time. -/
def asks (p : Crew) (i : Nat) : List Nat :=
  match p.strands[i]? with
  | some (_, .ready _) => [i]
  | _ => []

/-- One scene comes from another: a save is brought, a task that is able goes on, or time passes. -/
inductive Next : Scene → Scene → Prop where
  | bring (s : Scene) (save : Save) : Next s
    ⟨s.saves ++ [save], s.asked, s.crew.spawn host s.saves.length (.ready (.ask save))⟩
  | turn (s : Scene) {i : Nat} (h : s.crew.isAble host i = true) : Next s
    ⟨s.saves, s.asked ++ asks s.crew i, s.crew.turn host i⟩
  | wait (s : Scene) (time : Nat) : Next s
    ⟨s.saves, s.asked, s.crew.change host (host.atTime time)⟩

/-- A scene that comes about at a desk. -/
abbrev Scene.Reached (desk : ArtifactDesk Nat) (s : Scene) : Prop :=
  Relation.ReflTransGen Next (.start desk) s

/-- Those who have been given a place are the first who asked for one; the others wait in the order
of their requests. -/
def Served (asked : List Nat) (r : Saves) : Prop :=
  ∃ granted, asked = granted ++ r.desk.queue.waiting ∧
    ∀ i, i ∈ granted ↔ i ∈ r.desk.queue.inside ∨ i ∈ r.left

/-- For all but one nothing has changed but that they may have been given a place. -/
structure Apart (i : Nat) (r r' : Saves) : Prop where
  queue : r.desk.queue.Spares i r'.desk.queue
  entered : ∀ j ≠ i, (j ∈ r'.entered ↔ j ∈ r.entered)
  inSink : ∀ j ≠ i, j ∈ r.inSink → j ∈ r'.inSink
  left : r.left <+: r'.left

/-- Where the task of a save stands. -/
inductive Standing (refusals : List (Option String)) (r : Saves) (i : Nat) (save : Save) :
    Strand Reply Receipt → Prop where
  | unasked (hline : i ∉ r.desk.queue.line) (hout : i ∉ r.entered) :
    Standing refusals r i save (.ready (.ask save))
  | waiting (hline : i ∈ r.desk.queue.line) (hout : i ∉ r.entered) :
    Standing refusals r i save (.waiting save (receive save))
  | inSink {due : Nat} (hin : i ∈ r.inSink) :
    Standing refusals r i save (.calling due save (receive save))
  | back {j : Nat} (hj : r.left[j]? = some i) (hline : i ∉ r.desk.queue.line) :
    Standing refusals r i save
      (.ended (some (ArtifactDesk.verdict refusals j save.context save.artifact)))

variable {refusals : List (Option String)} {places i j : Nat} {asked : List Nat} {r r' r'' : Saves}
  {save : Save} {strand : Strand Reply Receipt}

namespace Served

variable (h : Served asked r)
include h

/-- A save that asks is among those that are served. -/
theorem ask : Served (asked ++ [i]) (r.asked i) := by
  obtain ⟨granted, rfl, hgranted⟩ := h
  let free := r.desk.queue.capacity - r.desk.queue.inside.length
  refine ⟨granted ++ (r.desk.queue.waiting ++ [i]).take free, ?_, fun j => ?_⟩
  · change _ = _ ++ (r.desk.queue.waiting ++ [i]).drop free
    rw [List.append_assoc, List.append_assoc, List.take_append_drop]
  · change _ ↔ j ∈ r.desk.queue.inside ++ (r.desk.queue.waiting ++ [i]).take free ∨ j ∈ r.left
    rw [List.mem_append, List.mem_append, hgranted, or_right_comm]

/-- A save that goes in is still served. -/
theorem enter : Served asked (r.gone i) := by
  obtain ⟨granted, hasked, hgranted⟩ := h
  exact ⟨granted, hasked, fun j => left_gone.symm ▸ hgranted j⟩

/-- A save that comes out is not served any more, and the others are. -/
theorem leave (hnodup : r.desk.queue.inside.Nodup) (hi : i ∈ r.desk.queue.inside) (save : Save) :
    Served asked (r.back i save) := by
  obtain ⟨granted, rfl, hgranted⟩ := h
  let free := r.desk.queue.capacity - (r.desk.queue.inside.erase i).length
  refine ⟨granted ++ r.desk.queue.waiting.take free, ?_, fun j => ?_⟩
  · rw [queue_back]
    change _ = _ ++ r.desk.queue.waiting.drop free
    rw [List.append_assoc, List.take_append_drop]
  · rw [queue_back, left_back]
    change _ ↔ j ∈ r.desk.queue.inside.erase i ++ r.desk.queue.waiting.take free ∨ _
    rw [List.mem_append, List.mem_append, List.mem_append, List.mem_singleton, hgranted,
      hnodup.mem_erase_iff]
    by_cases hj : j = i
    · simp [hj, hi]
    · simp only [hj, ne_eq, not_false_iff, true_and, or_false]
      exact or_right_comm

end Served

namespace Apart

/-- Two steps that are apart from all other saves are so together. -/
theorem trans (h : Apart i r r') (h' : Apart i r' r'') : Apart i r r'' :=
  ⟨h.queue.trans h'.queue, fun j hne => (h'.entered j hne).trans (h.entered j hne),
    fun j hne => h'.inSink j hne ∘ h.inSink j hne, h.left.trans h'.left⟩

/-- Asking for a place concerns nobody else. -/
theorem ask (r : Saves) (i : Nat) : Apart i r (r.asked i) :=
  ⟨PlaceQueue.spares_request _ i, fun _ _ => Iff.rfl, fun _ _ => id, List.prefix_rfl⟩

/-- Going in concerns nobody else. -/
theorem enter (r : Saves) (i : Nat) : Apart i r (r.gone i) := by
  refine ⟨.refl i _, fun j hne => ?_, fun j _ hj => ?_, left_gone ▸ List.prefix_rfl⟩
  · rw [entered_gone, List.mem_append, List.mem_singleton, or_iff_left hne]
  · rw [mem_inSink, left_gone, entered_gone]
    exact ⟨List.mem_append_left _ (mem_inSink.1 hj).1, (mem_inSink.1 hj).2⟩

/-- Coming out concerns nobody else. -/
theorem leave (hqueue : r.desk.queue.Orderly) (hi : i ∈ r.desk.queue.inside) (save : Save) :
    Apart i r (r.back i save) := by
  refine ⟨?_, fun j _ => by rw [entered_back], fun j hne hj => mem_inSink_back.2 ⟨hj, hne⟩, ?_⟩
  · exact queue_back ▸ PlaceQueue.spares_leave hqueue hi
  · exact left_back ▸ List.prefix_append _ _

end Apart

/-- All others stand where they stood. -/
theorem Standing.others (h : Standing refusals r j save strand) (ha : Apart i r r') (hne : j ≠ i) :
    Standing refusals r' j save strand := by
  have hline := ha.queue.line j hne
  have hentered := ha.entered j hne
  cases h with
  | unasked hout hnew => exact .unasked (mt hline.1 hout) (mt hentered.1 hnew)
  | waiting hin hnew => exact .waiting (hline.2 hin) (mt hentered.1 hnew)
  | inSink hin => exact .inSink (ha.inSink j hne hin)
  | back hj hout =>
    obtain ⟨more, hmore⟩ := ha.left
    refine .back (hmore ▸ ?_) (mt hline.1 hout)
    exact (List.getElem?_append_left (List.getElem?_eq_some_iff.1 hj).1).trans hj

/-- What comes of a task that goes on. -/
structure Comes (refusals : List (Option String)) (places : Nat) (asked : List Nat) (i : Nat)
    (r : Saves) (save : Save) (next : Saves × Strand Reply Receipt) : Prop where
  traffic : Traffic refusals places next.1
  served : Served asked next.1
  apart : Apart i r next.1
  standing : Standing refusals next.1 i save next.2

section

variable (h : Traffic refusals places r)
include h

/-- A save comes out of the sink with its own receipt. -/
theorem comes_back (hserved : Served asked r) (hi : i ∈ r.inSink) (save : Save) :
    Comes refusals places asked i r save
      (r.back i save, .ended (some (r.receipt i save))) := by
  have hin := h.placed i hi
  refine ⟨h.leave hi save, hserved.leave h.nodup_inside hin save, .leave h.queue hin save, ?_⟩
  have hj : (r.back i save).left[r.left.length]? = some i := by
    rw [left_back, List.getElem?_append_right (Nat.le_refl _), Nat.sub_self]
    rfl
  have hline : i ∉ (r.back i save).desk.queue.line := fun hmem =>
    ((PlaceQueue.mem_line_leave h.queue hin).1 (queue_back ▸ hmem)).2 rfl
  rw [receipt, ArtifactDesk.save_verdict _ _ _ _ h.refusals]
  exact .back hj hline

/-- A save that has a place goes into the sink. -/
theorem comes_in (hserved : Served asked r) (hi : i ∈ r.desk.queue.inside) (hnew : i ∉ r.entered)
    (save : Save) :
    Comes refusals places asked i r save (host.resume i (.waiting save (receive save)) r) := by
  have hgone := h.enter hi hnew
  have hin : i ∈ (r.gone i).inSink := by
    rw [mem_inSink, entered_gone, left_gone]
    exact ⟨List.mem_append_right _ (List.mem_singleton_self i), mt (h.left_mem i) hnew⟩
  rw [Host.resume, take_eq]
  by_cases hzero : save.duration = 0
  · rw [if_pos hzero]
    obtain ⟨htraffic, hserved', hapart, hstanding⟩ := comes_back hgone hserved.enter hin save
    exact ⟨htraffic, hserved', (Apart.enter r i).trans hapart, hstanding⟩
  · rw [if_neg hzero]
    exact ⟨hgone, hserved.enter, .enter r i, .inSink hin⟩

/-- A save asks for a place, and goes into the sink if it gets one. -/
theorem comes_ask (hserved : Served asked r) (hline : i ∉ r.desk.queue.line) (hnew : i ∉ r.entered)
    (save : Save) :
    Comes refusals places (asked ++ [i]) i r save (host.carry i (.ask save) r) := by
  have hasked := h.ask hline
  rw [carry_ask]
  split
  · next hadmits =>
    have hin : i ∈ (r.asked i).desk.queue.inside := List.contains_iff_mem.1 hadmits
    obtain ⟨htraffic, hserved', hapart, hstanding⟩ := comes_in hasked hserved.ask hin hnew save
    exact ⟨htraffic, hserved', (Apart.ask r i).trans hapart, hstanding⟩
  · exact ⟨hasked, hserved.ask, .ask r i,
      .waiting (PlaceQueue.mem_line_request.2 (.inr rfl)) hnew⟩

end

/-- What every scene at a desk keeps: each task stands where the traffic says. -/
structure Consistent (refusals : List (Option String)) (places : Nat) (s : Scene) : Prop where
  traffic : Traffic refusals places s.crew.shared
  served : Served s.asked s.crew.shared
  length : s.crew.strands.length = s.saves.length
  known : ∀ i, i ∈ s.crew.shared.desk.queue.line ∨ i ∈ s.crew.shared.entered → i < s.saves.length
  standing : ∀ i save, s.saves[i]? = some save → ∃ strand, s.crew.strands[i]? = some (i, strand) ∧
    Standing refusals s.crew.shared i save strand
  covers : s.crew.Covers

/-- What holds in every scene: there are never more saves in the sink than places; all places are
given away while somebody waits, and all who have one are in the sink when nobody is able to go
on; places are given away in the order of the requests; and nobody goes in or comes out twice. -/
structure Orderly (places : Nat) (s : Scene) : Prop where
  peak : s.crew.shared.peak ≤ places
  inSink : s.crew.shared.inSink.length ≤ places
  given : s.crew.shared.desk.queue.waiting ≠ [] → s.crew.shared.desk.queue.inside.length = places
  busy : s.crew.shared.desk.queue.waiting ≠ [] → (∀ i, s.crew.isAble host i = false) →
    s.crew.shared.inSink.length = places
  served : Served s.asked s.crew.shared
  entered : s.crew.shared.entered.Nodup
  left : s.crew.shared.left.Nodup

/-- What holds in the end: each save has gone in and come out once and got its receipt, and all
places are free. -/
structure Over (refusals : List (Option String)) (places : Nat) (saves : List Save) (p : Crew) :
    Prop where
  entered : p.shared.entered.Perm (List.range saves.length)
  left : p.shared.left.Perm (List.range saves.length)
  ended : ∀ (i j : Nat) (save : Save), saves[i]? = some save → p.shared.left[j]? = some i →
    p.strands[i]? =
      some (i, .ended (some (ArtifactDesk.verdict refusals j save.context save.artifact)))
  inside : p.shared.desk.queue.inside = []
  waiting : p.shared.desk.queue.waiting = []
  capacity : p.shared.desk.queue.capacity = places

namespace Consistent

variable {s s' : Scene}

/-- A scene is consistent at the beginning. -/
theorem start (places : Nat) (delay : Context → Artifact → Nat) :
    Consistent refusals (max 1 places) (.start (.new places delay refusals)) where
  traffic := .begin delay
  served := ⟨[], rfl, fun i => ⟨nofun, fun h => by rcases h with h | h <;> cases h⟩⟩
  length := rfl
  known i h := by
    rcases h with h | h <;> cases h
  standing i save h := by cases h
  covers := nofun

variable (h : Consistent refusals places s)
include h

/-- The task at a position belongs to the save of the position. -/
theorem standing_at (hi : i < s.saves.length) : ∃ save strand, s.saves[i]? = some save ∧
    s.crew.strands[i]? = some (i, strand) ∧ Standing refusals s.crew.shared i save strand := by
  obtain ⟨strand, hstrand, hstanding⟩ := h.standing i s.saves[i] (List.getElem?_eq_getElem hi)
  exact ⟨_, strand, List.getElem?_eq_getElem hi, hstrand, hstanding⟩

/-- A scene stays consistent when a save is brought. -/
theorem bring (save : Save) : Consistent refusals places
    ⟨s.saves ++ [save], s.asked, s.crew.spawn host s.saves.length (.ready (.ask save))⟩ := by
  have hstrands : (s.crew.spawn host s.saves.length (.ready (.ask save))).strands =
      s.crew.strands ++ [(s.saves.length, .ready (.ask save))] := rfl
  refine ⟨h.traffic, h.served, ?_, fun i hi => ?_, fun i other hi => ?_, h.covers.spawn _ _⟩
  · rw [hstrands, List.length_append, List.length_append, h.length]
    rfl
  · rw [List.length_append]
    exact Nat.lt_succ_of_lt (h.known i hi)
  · rw [hstrands]
    rcases Nat.lt_or_ge i s.saves.length with hlt | hge
    · rw [List.getElem?_append_left (h.length ▸ hlt)]
      rw [List.getElem?_append_left hlt] at hi
      exact h.standing i other hi
    · have hlt := (List.getElem?_eq_some_iff.1 hi).1
      rw [List.length_append, List.length_singleton] at hlt
      obtain rfl : i = s.saves.length := by omega
      have hsave : save = other := by simpa using hi
      rw [← h.length, List.getElem?_append_right (Nat.le_refl _), Nat.sub_self]
      have hout : ∀ h' : s.saves.length < s.saves.length, False := fun h' => Nat.lt_irrefl _ h'
      refine ⟨_, rfl, hsave ▸ .unasked ?_ ?_⟩
      · exact fun hmem => hout (h.known _ (.inl (h.length ▸ hmem)))
      · exact fun hmem => hout (h.known _ (.inr (h.length ▸ hmem)))

/-- A scene stays consistent when a save that is able takes its turn. -/
theorem turn (hable : s.crew.isAble host i = true) : Consistent refusals places
    ⟨s.saves, s.asked ++ asks s.crew i, s.crew.turn host i⟩ := by
  obtain ⟨e, he, hgoes⟩ := (Option.any_eq_true _ _).1 hable
  have hi : i < s.saves.length := h.length ▸ (List.getElem?_eq_some_iff.1 he).1
  obtain ⟨save, strand, hsave, hstrand, hstanding⟩ := h.standing_at hi
  cases he.symm.trans hstrand
  have hturn : s.crew.turn host i = Pool.lineUp host ⟨(host.resume i strand s.crew.shared).1,
      s.crew.strands.set i (i, (host.resume i strand s.crew.shared).2),
      s.crew.order.erase i ++ [i]⟩ := by
    rw [Pool.turn, hstrand]
  have hcomes : Comes refusals places (s.asked ++ asks s.crew i) i s.crew.shared save
      (host.resume i strand s.crew.shared) := by
    rw [asks, hstrand]
    cases hstanding with
    | unasked hline hnew => exact comes_ask h.traffic h.served hline hnew save
    | waiting hline hnew =>
      have hin : i ∈ s.crew.shared.desk.queue.inside := List.contains_iff_mem.1 hgoes
      exact (List.append_nil s.asked).symm ▸ comes_in h.traffic h.served hin hnew save
    | inSink hin => exact (List.append_nil s.asked).symm ▸ comes_back h.traffic h.served hin save
    | back => cases hgoes
  obtain ⟨htraffic, hserved, hapart, hnext⟩ := hcomes
  refine ⟨hturn ▸ htraffic, hturn ▸ hserved, ?_, fun j hj => ?_, fun j other hj => ?_,
    h.covers.turn i⟩
  · rw [hturn]
    exact (List.length_set ..).trans h.length
  · rcases eq_or_ne j i with rfl | hne
    · exact hi
    · rw [hturn] at hj
      exact h.known j (hj.imp (hapart.queue.line j hne).1 (hapart.entered j hne).1)
  · rw [hturn]
    rcases eq_or_ne j i with rfl | hne
    · cases hsave.symm.trans hj
      exact ⟨_, List.getElem?_set_self (h.length ▸ hi), hnext⟩
    · obtain ⟨strand', hstrand', hother⟩ := h.standing j other hj
      exact ⟨strand', (List.getElem?_set_ne hne.symm).trans hstrand', hother.others hapart hne⟩

/-- A scene stays consistent when time passes. -/
theorem wait (time : Nat) : Consistent refusals places
    ⟨s.saves, s.asked, s.crew.change host (host.atTime time)⟩ := by
  refine ⟨h.traffic.atTime time, h.served, h.length, h.known, fun i save hi => ?_,
    h.covers.change _⟩
  obtain ⟨strand, hstrand, hstanding⟩ := h.standing i save hi
  refine ⟨strand, hstrand, ?_⟩
  cases hstanding with
  | unasked hline hnew => exact .unasked hline hnew
  | waiting hline hnew => exact .waiting hline hnew
  | inSink hin => exact .inSink hin
  | back hj hline => exact .back hj hline

/-- A scene stays consistent whatever happens next. -/
theorem next (hnext : Next s s') : Consistent refusals places s' := by
  cases hnext with
  | bring save => exact h.bring save
  | turn hable => exact h.turn hable
  | wait time => exact h.wait time

/-- When nobody is able to go on, all who have a place are in the sink. -/
theorem inSink_of_inside (hidle : ∀ i, s.crew.isAble host i = false)
    (hi : i ∈ s.crew.shared.desk.queue.inside) : i ∈ s.crew.shared.inSink := by
  have hline := PlaceQueue.mem_line.2 (.inl hi)
  obtain ⟨save, strand, -, hstrand, hstanding⟩ := h.standing_at (h.known i (.inl hline))
  cases hstanding with
  | unasked hout => exact absurd hline hout
  | waiting =>
    have hable : s.crew.isAble host i = true :=
      (Option.any_eq_true _ _).2 ⟨_, hstrand, List.contains_iff_mem.2 hi⟩
    cases hable.symm.trans (hidle i)
  | inSink hin => exact hin
  | back _ hout => exact absurd hline hout

/-- A consistent scene is orderly. -/
theorem orderly : Orderly places s := by
  have htraffic := h.traffic
  refine ⟨htraffic.peak_le, htraffic.inSink_le, htraffic.inside_eq, fun hwaits hidle => ?_,
    h.served, htraffic.entered, htraffic.left⟩
  have hsub := htraffic.nodup_inside.subperm fun i hi => h.inSink_of_inside hidle hi
  exact Nat.le_antisymm htraffic.inSink_le (htraffic.inside_eq hwaits ▸ hsub.length_le)

section Ended

variable (hstep : s.crew.step? host none (fun _ => false) = none)
include hstep

/-- When no task is able to go on, now or later, nobody is in the sink, who would come out of it
some time. -/
theorem inSink_eq_nil : s.crew.shared.inSink = [] := by
  have hstill := Pool.standstill h.covers (fun _ _ => rfl) rfl hstep
  refine List.eq_nil_iff_forall_not_mem.2 fun i hi => ?_
  obtain ⟨hentered, hout⟩ := mem_inSink.1 hi
  obtain ⟨save, strand, -, hstrand, hstanding⟩ := h.standing_at (h.known i (.inr hentered))
  have hdue := (hstill _ (List.mem_of_getElem? hstrand)).2
  cases hstanding with
  | unasked _ hnew => exact hnew hentered
  | waiting _ hnew => exact hnew hentered
  | inSink => cases hdue
  | back hj => exact hout (List.mem_of_getElem? hj)

/-- In a scene that is over no save is able to go on. -/
theorem isAble_eq_false (i : Nat) : s.crew.isAble host i = false := by
  have hstill := Pool.standstill h.covers (fun _ _ => rfl) rfl hstep
  cases hable : s.crew.isAble host i with
  | false => rfl
  | true =>
    obtain ⟨e, he, hgoes⟩ := (Option.any_eq_true _ _).1 hable
    cases hgoes.symm.trans (hstill e (List.mem_of_getElem? he)).1

/-- Nobody has a place then, and therefore nobody waits for one. -/
theorem inside_eq_nil : s.crew.shared.desk.queue.inside = [] := by
  refine List.eq_nil_iff_forall_not_mem.2 fun i hi => ?_
  have hin := h.inSink_of_inside (h.isAble_eq_false hstep) hi
  rw [h.inSink_eq_nil hstep] at hin
  cases hin

/-- In a scene that is over no save stands in the line. -/
theorem not_mem_line (i : Nat) : i ∉ s.crew.shared.desk.queue.line := fun hi =>
  h.traffic.queue.inside_ne_nil hi (h.inside_eq_nil hstep)

/-- Every save has come out then, with its own receipt. -/
theorem back {save : Save} (hi : s.saves[i]? = some save) :
    ∃ j, s.crew.shared.left[j]? = some i ∧ s.crew.strands[i]? =
      some (i, .ended (some (ArtifactDesk.verdict refusals j save.context save.artifact))) := by
  obtain ⟨strand, hstrand, hstanding⟩ := h.standing i save hi
  cases hstanding with
  | unasked =>
    have hable : s.crew.isAble host i = true := (Option.any_eq_true _ _).2 ⟨_, hstrand, rfl⟩
    cases hable.symm.trans (h.isAble_eq_false hstep i)
  | waiting hin => exact absurd hin (h.not_mem_line hstep i)
  | inSink hin =>
    rw [h.inSink_eq_nil hstep] at hin
    cases hin
  | @back j hj => exact ⟨j, hj, hstrand⟩

/-- All saves are over then. -/
theorem ended : Over refusals places s.saves s.crew := by
  have htraffic := h.traffic
  have hleft : ∀ i < s.saves.length, i ∈ s.crew.shared.left := fun i hi => by
    obtain ⟨j, hj, -⟩ := h.back hstep (List.getElem?_eq_getElem hi)
    exact List.mem_of_getElem? hj
  constructor
  case entered =>
    refine (List.perm_ext_iff_of_nodup htraffic.entered List.nodup_range).2 fun i => ?_
    rw [List.mem_range]
    exact ⟨fun hi => h.known i (.inr hi), fun hi => htraffic.left_mem i (hleft i hi)⟩
  case left =>
    refine (List.perm_ext_iff_of_nodup htraffic.left List.nodup_range).2 fun i => ?_
    rw [List.mem_range]
    exact ⟨fun hi => h.known i (.inr (htraffic.left_mem i hi)), hleft i⟩
  case ended =>
    intro i j save hi hj
    obtain ⟨j', hj', hstrand⟩ := h.back hstep hi
    have hlt := (List.getElem?_eq_some_iff.1 hj').1
    obtain rfl : j' = j := (List.getElem?_inj hlt htraffic.left).1 (hj'.trans hj.symm)
    exact hstrand
  case inside => exact h.inside_eq_nil hstep
  case waiting =>
    exact List.eq_nil_iff_forall_not_mem.2 fun i hi =>
      h.not_mem_line hstep i (PlaceQueue.mem_line.2 (.inr hi))
  case capacity => exact htraffic.capacity

end Ended

end Consistent

/-- Every scene at a desk keeps what a scene keeps. -/
theorem Scene.Reached.consistent {delay : Context → Artifact → Nat} {s : Scene}
    (h : s.Reached (.new places delay refusals)) : Consistent refusals (max 1 places) s := by
  induction h with
  | refl => exact .start places delay
  | tail _ hnext ih => exact ih.next hnext

/-- A step of the tasks is one of the ways in which a scene may go on. -/
theorem Scene.Reached.step {desk : ArtifactDesk Nat} {s : Scene} {p : Crew} (h : s.Reached desk)
    (hstep : s.crew.step? host none (fun _ => false) = some p) :
    ∃ asked, Scene.Reached desk ⟨s.saves, asked, p⟩ := by
  rw [Pool.step?] at hstep
  split at hstep
  · next i hnext =>
    cases hstep
    exact ⟨_, h.tail (.turn s (Pool.next?_isAble hnext))⟩
  · obtain ⟨due, -, hstep⟩ := Option.bind_eq_some_iff.1 hstep
    obtain ⟨i, hnext, rfl⟩ := Option.map_eq_some_iff.1 hstep
    have hwait := h.tail (.wait s due)
    exact ⟨_, hwait.tail (.turn _ (Pool.next?_isAble hnext))⟩

/-- When the tasks go on as far as they can, the scene has gone on. -/
theorem Scene.Reached.run {desk : ArtifactDesk Nat} {saves : List Save} (p : Crew) :
    ∀ {asked}, Scene.Reached desk ⟨saves, asked, p⟩ →
      ∃ asked', Scene.Reached desk ⟨saves, asked', p.run host none fun _ => false⟩ := by
  induction p using (Pool.follows_wf host).induction with
  | _ p ih =>
    intro asked h
    rw [Pool.run]
    split
    · exact ⟨asked, h⟩
    · next p' hstep =>
      obtain ⟨asked', h'⟩ := h.step hstep
      exact ih p' (Pool.step?_follows hstep) h'

/-- A scene at a desk is in good order, and when its tasks go on as far as they can, all of its
saves are over. -/
theorem Scene.Reached.settled {delay : Context → Artifact → Nat} {s : Scene}
    (h : s.Reached (.new places delay refusals)) :
    Over refusals (max 1 places) s.saves (s.crew.run host none fun _ => false) := by
  obtain ⟨asked, hrun⟩ := Scene.Reached.run s.crew h
  exact hrun.consistent.ended (Pool.step?_run none _ _)

end Saves

end DeviceSuite
