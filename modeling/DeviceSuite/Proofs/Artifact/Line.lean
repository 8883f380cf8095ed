import DeviceSuite.Artifact.Desk

/-!
# The line of a queue

Those inside a queue and those who wait stand in one line, the first of them inside. In an orderly
queue nobody stands twice, and nobody waits while there is a free place; asking to be let in and
leaving keep it so.
-/

namespace DeviceSuite

namespace PlaceQueue

variable {L : Type} {q : PlaceQueue L} {l l' : L}

/-- All who are in the queue, inside or not. -/
def line (q : PlaceQueue L) : List L := q.inside ++ q.waiting

/-- A queue with a place in which everybody stands once, and nobody waits in vain. -/
structure Orderly (q : PlaceQueue L) : Prop where
  capacity : 0 < q.capacity
  nodup : q.line.Nodup
  full : q.waiting ≠ [] → q.capacity ≤ q.inside.length

/-- Whoever stands in the line is inside or waits. -/
theorem mem_line : l ∈ q.line ↔ l ∈ q.inside ∨ l ∈ q.waiting := List.mem_append

/-- A new queue is orderly: nobody stands in its line. -/
theorem orderly_ofPlaces (places : Nat) : (ofPlaces (L := L) places).Orderly :=
  ⟨Nat.le_max_left 1 places, List.nodup_nil, fun h => absurd rfl h⟩

/-- Letting in keeps the line as it is. -/
@[simp] theorem line_letIn (q : PlaceQueue L) : q.letIn.line = q.line := by
  simp [line, letIn]

/-- Whoever is inside stays inside when others are let in. -/
theorem inside_letIn (h : l ∈ q.inside) : l ∈ q.letIn.inside := List.mem_append_left _ h

/-- Letting others in leaves a queue orderly as long as nobody stands in its line twice. -/
theorem orderly_letIn (hcapacity : 0 < q.capacity) (hnodup : q.line.Nodup) : q.letIn.Orderly := by
  refine ⟨hcapacity, q.line_letIn ▸ hnodup, fun hwaiting => ?_⟩
  have hmore : q.capacity - q.inside.length < q.waiting.length := by
    simpa [letIn, List.drop_eq_nil_iff] using hwaiting
  simp only [letIn, List.length_append, List.length_take]
  omega

/-- As long as somebody is in the queue, somebody is inside. -/
theorem Orderly.inside_ne_nil (h : q.Orderly) (hl : l ∈ q.line) : q.inside ≠ [] := by
  intro hnil
  have hwaiting : l ∈ q.waiting := by simpa [line, hnil] using hl
  have hfull := h.full (List.ne_nil_of_mem hwaiting)
  rw [hnil] at hfull
  exact absurd h.capacity (Nat.not_lt.2 hfull)

/-- Whoever asks for a place stands at the end of the line. -/
theorem line_request (q : PlaceQueue L) (l : L) : (q.request l).line = q.line ++ [l] := by
  rw [request, line_letIn, line, line, List.append_assoc]

/-- A request adds the one who asks to the line, and nobody else. -/
theorem mem_line_request : l' ∈ (q.request l).line ↔ l' ∈ q.line ∨ l' = l := by
  rw [line_request, List.mem_append, List.mem_singleton]

/-- A queue stays orderly when somebody asks who does not stand in its line. -/
theorem Orderly.request (h : q.Orderly) (hl : l ∉ q.line) : (q.request l).Orderly := by
  refine orderly_letIn (q := { q with waiting := q.waiting ++ [l] }) h.capacity ?_
  have hline : ({ q with waiting := q.waiting ++ [l] } : PlaceQueue L).line = q.line ++ [l] :=
    (List.append_assoc _ _ _).symm
  rw [hline]
  refine List.nodup_append.2 ⟨h.nodup, List.pairwise_singleton _ l, ?_⟩
  rintro a ha b hb rfl
  exact hl (List.mem_singleton.1 hb ▸ ha)

section Leave

variable [BEq L]

/-- A queue stays orderly when somebody leaves. -/
theorem Orderly.leave (h : q.Orderly) (l : L) : (q.leave l).Orderly :=
  orderly_letIn h.capacity (h.nodup.sublist (List.erase_sublist.append_right _))

variable [LawfulBEq L]

/-- Whoever leaves stands in the line no more; all others still do. -/
theorem mem_line_leave (h : q.Orderly) (hl : l ∈ q.inside) :
    l' ∈ (q.leave l).line ↔ l' ∈ q.line ∧ l' ≠ l := by
  obtain ⟨hinside, -, hdisjoint⟩ := List.nodup_append.1 h.nodup
  have hout : l ∉ q.waiting := fun hwaiting => hdisjoint l hl l hwaiting rfl
  rw [leave, line_letIn, mem_line, mem_line, hinside.mem_erase_iff]
  constructor
  · rintro (⟨hne, hmem⟩ | hmem)
    · exact ⟨.inl hmem, hne⟩
    · exact ⟨.inr hmem, fun heq => hout (heq ▸ hmem)⟩
  · rintro ⟨hmem | hmem, hne⟩
    · exact .inl ⟨hne, hmem⟩
    · exact .inr hmem

/-- Whoever is inside stays inside when somebody else leaves. -/
theorem inside_leave (h : l' ∈ q.inside) (hne : l' ≠ l) : l' ∈ (q.leave l).inside :=
  inside_letIn ((List.mem_erase_of_ne hne).2 h)

end Leave

section Idle

/-- A queue in which nobody stands. -/
structure Idle (q : PlaceQueue L) : Prop where
  inside : q.inside = []
  waiting : q.waiting = []
  capacity : 0 < q.capacity

/-- Nobody is in a new queue. -/
theorem idle_ofPlaces (places : Nat) : (ofPlaces (L := L) places).Idle :=
  ⟨rfl, rfl, Nat.le_max_left 1 places⟩

/-- A queue that nobody is in stays so when somebody leaves it. -/
theorem Idle.leave [BEq L] (h : q.Idle) : (q.leave l).Idle := by
  constructor
  · simp [PlaceQueue.leave, letIn, h.inside, h.waiting]
  · simp [PlaceQueue.leave, letIn, h.waiting]
  · exact h.capacity

/-- Whoever comes to an idle queue goes straight in. -/
theorem Idle.request (h : q.Idle) :
    (q.request l).inside = [l] ∧ (q.request l).waiting = [] ∧ (q.request l).capacity = q.capacity := by
  have htake : [l].take q.capacity = [l] := List.take_of_length_le h.capacity
  have hdrop : [l].drop q.capacity = [] := List.drop_eq_nil_of_le h.capacity
  simp [PlaceQueue.request, letIn, h.inside, h.waiting, htake, hdrop]

variable [BEq L] [LawfulBEq L]

/-- Where nobody else is, a request is granted at once. -/
theorem Idle.admits_request (h : q.Idle) : (q.request l).admits l = true := by
  simp [admits, h.request.1]

/-- A queue that nobody is in is so again when the only one who asked has left. -/
theorem Idle.leave_request (h : q.Idle) : ((q.request l).leave l).Idle := by
  obtain ⟨hinside, hwaiting, hcapacity⟩ := h.request (l := l)
  constructor
  · simp [PlaceQueue.leave, letIn, hinside, hwaiting]
  · simp [PlaceQueue.leave, letIn, hwaiting]
  · exact hcapacity ▸ h.capacity

end Idle

/-- One queue has become another on account of one who went in and out: for all others nothing has
changed but that they may have been let in. -/
structure Spares (l : L) (q q' : PlaceQueue L) : Prop where
  line : ∀ l' ≠ l, (l' ∈ q'.line ↔ l' ∈ q.line)
  inside : ∀ l' ≠ l, l' ∈ q.inside → l' ∈ q'.inside

/-- A queue that has not changed has spared all others. -/
theorem Spares.refl (l : L) (q : PlaceQueue L) : q.Spares l q :=
  ⟨fun _ _ => Iff.rfl, fun _ _ => id⟩

/-- What spares the others twice in a row spares them. -/
theorem Spares.trans {q' q'' : PlaceQueue L} (h : q.Spares l q') (h' : q'.Spares l q'') :
    q.Spares l q'' :=
  ⟨fun l' hne => (h'.line l' hne).trans (h.line l' hne),
    fun l' hne => h'.inside l' hne ∘ h.inside l' hne⟩

/-- A request leaves everybody else where they are. -/
theorem spares_request (q : PlaceQueue L) (l : L) : q.Spares l (q.request l) :=
  ⟨fun _ hne => mem_line_request.trans (or_iff_left hne),
    fun _ _ => inside_letIn (q := { q with waiting := q.waiting ++ [l] })⟩

/-- Leaving the inside leaves everybody else inside, and in the line. -/
theorem spares_leave [BEq L] [LawfulBEq L] (h : q.Orderly) (hl : l ∈ q.inside) :
    q.Spares l (q.leave l) :=
  ⟨fun _ hne => (mem_line_leave h hl).trans (and_iff_left hne), fun _ hne hin => inside_leave hin hne⟩

end PlaceQueue

namespace ArtifactDesk

variable {L : Type} [BEq L] (d : ArtifactDesk L) (l : L) (c : Context) (a : Artifact)

/-- A save leaves its place, whether it was kept or refused. -/
theorem save_queue : (d.save l c a).1.queue = d.queue.leave l := by
  cases hnext : d.refusals.head?.join <;> simp only [save, put, hnext]

/-- A save uses up the first of the refusals. -/
theorem save_refusals : (d.save l c a).1.refusals = d.refusals.tail := by
  cases hnext : d.refusals.head?.join <;> simp only [save, put, hnext]

/-- A save changes nothing about how long the saves take. -/
theorem save_delay : (d.save l c a).1.delay = d.delay := by
  cases hnext : d.refusals.head?.join <;> simp only [save, put, hnext]

end ArtifactDesk

end DeviceSuite
