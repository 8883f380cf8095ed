import DeviceSuite.Proofs.Run.Books
import DeviceSuite.Proofs.Run.Changes

/-!
# What the world does to the books

Each part of a call, and the end of a task, does one thing to the books of its run and nothing to
those of any other; a call to a device may raise stop flags beside.
-/

namespace DeviceSuite

namespace Registry

/-- A change of a run touches that run alone. -/
theorem update_run? (r : Registry) (m n : Nat) (f : RunState → RunState) :
    (r.update m f).run? n = if m = n then (r.run? n).map f else r.run? n := by
  simp only [update, run?, List.getElem?_modify]
  split <;> simp

end Registry

namespace Books

variable {σ : Type}

/-- The books of the run with a number in a world with a record of calls. -/
def Of (n : Nat) (s : World σ × Calls) (b : Books) : Prop :=
  s.1.registry.run? n = some b.state ∧ s.1.crew? n = some b.crew ∧
    (b.calls = s.2.filter fun e => e.label.run = n) ∧
    ∀ e ∈ s.1.registry.active, e.2 = n → e.1 ∈ b.listed

/-- The books are as they were, or the stop flag has been raised. -/
def Near (n : Nat) (s : World σ × Calls) (b : Books) : Prop :=
  Of n s b ∨ Of n s b.raise

variable {n : Nat} {w w' : World σ} {calls : Calls} {b : Books} {l : Role}

/-- The books are the same in a world with the same runs and crews. -/
theorem Of.congr (h : Of n (w, calls) b) (hruns : w'.registry.runs = w.registry.runs)
    (hcrews : w'.crews = w.crews) (hactive : w'.registry.active ⊆ w.registry.active) :
    Of n (w', calls) b := by
  refine ⟨?_, ?_, h.2.2.1, fun e he => h.2.2.2 e (hactive he)⟩
  · simpa [Registry.run?, hruns] using h.1
  · simpa [World.crew?, hcrews] using h.2.1

/-- The books are near as long as runs, crews and what is active are left alone. -/
theorem Near.congr (h : Near n (w, calls) b) (hruns : w'.registry.runs = w.registry.runs)
    (hcrews : w'.crews = w.crews) (hactive : w'.registry.active ⊆ w.registry.active) :
    Near n (w', calls) b :=
  h.imp (·.congr hruns hcrews hactive) (·.congr hruns hcrews hactive)

/-- A change of another run does nothing to the books. -/
theorem Of.updateRun_other (h : Of n (w, calls) b) {m : Nat} (hm : m ≠ n)
    (f : RunState → RunState) : Of n (w.updateRun m f, calls) b := by
  refine ⟨?_, h.2⟩
  simpa [World.updateRun, Registry.update_run?, hm] using h.1

/-- A change of the run changes the state in its books. -/
theorem Of.updateRun_self (h : Of n (w, calls) b) (f : RunState → RunState) :
    Of n (w.updateRun n f, calls) { b with state := f b.state } := by
  refine ⟨?_, h.2⟩
  simp [World.updateRun, Registry.update_run?, h.1]

/-- What another crew does is not in the books. -/
theorem Of.updateCrew_other (h : Of n (w, calls) b) {m : Nat} (hm : m ≠ n) (f : Crew → Crew) :
    Of n (w.updateCrew m f, calls) b := by
  refine ⟨h.1, ?_, h.2.2⟩
  simpa [World.updateCrew, World.crew?, List.getElem?_modify, hm] using h.2.1

/-- What the crew of the run does is in its books. -/
theorem Of.updateCrew_self (h : Of n (w, calls) b) (f : Crew → Crew) :
    Of n (w.updateCrew n f, calls) { b with crew := f b.crew } := by
  have hcrew : w.crews[n]? = some b.crew := h.2.1
  refine ⟨h.1, ?_, h.2.2⟩
  simp [World.updateCrew, World.crew?, hcrew]

/-- A stop of one run or another raises the stop flag at most. -/
theorem Near.requestStop (h : Near n (w, calls) b) (m : Nat) :
    Near n (w.updateRun m RunState.requestStop, calls) b := by
  by_cases hm : m = n
  · subst hm
    exact .inr (h.elim (fun h => h.updateRun_self _) fun h => h.updateRun_self _)
  · exact h.imp (·.updateRun_other hm _) (·.updateRun_other hm _)

/-- A stop of any run raises the flag in the books at most. -/
theorem Near.stop (h : Near n (w, calls) b) (runId : String) :
    Near n ({ w with registry := w.registry.stop runId }, calls) b := by
  unfold Registry.stop
  split
  · exact h
  · exact h.requestStop _

/-- A stop of all runs raises the flag in the books at most. -/
theorem Near.stopAll (h : Near n (w, calls) b) : Near n (w.stopAll, calls) b := by
  unfold World.stopAll
  apply List.foldlRecOn (motive := fun r => Near n ({ w with registry := r }, calls) b)
  · exact h
  · intro r hr e _
    exact hr.stop e.1

/-- What a device asks for raises the flag in the books at most. -/
theorem Near.heed (h : Near n (w, calls) b) (signal : Signal) :
    Near n (w.heed signal, calls) b := by
  cases signal with
  | snapshot => exact h.congr rfl rfl fun _ h => h
  | stop => exact h.stopAll

/-- The beginning of a call raises the stop flag at most. -/
theorem Of.accept (service : Service DeviceCall.Reply σ) (h : Of n (w, calls) b) (l : Role)
    (c : RunCall) : Near n ((w.accept service l c).1, calls) b :=
  World.accept_keeps service l c (P := fun w => Near n (w, calls) b)
    (fun _ _ hw => hw.congr rfl rfl fun _ h => h) (fun _ signal hw => hw.heed signal) (.inl h)

/-- The calls that a task of the run has begun are all in the books. -/
theorem Of.own (h : Of n (w, calls) b) {l : Role} (hl : l.run = n) :
    b.own l = calls.filter fun e => e.label = l := by
  rw [Books.own, h.2.2.1, List.filter_filter]
  apply List.filter_congr
  intro e _
  by_cases he : e.label = l <;> simp [he, hl]

/-- The stop flag that a task reads is that of the books of its run. -/
theorem Of.isStopped (h : Of l.run (w, calls) b) : w.isStopped l.run = b.state.stopRequested := by
  simp [World.isStopped, h.1]

/-- A call is written down in the books of its run. -/
theorem Of.record_self (h : Of l.run (w, calls) b) (c : RunCall) (stopped : Bool) :
    Of l.run (w, calls ++ [⟨l, c, stopped⟩]) { b with calls := b.calls ++ [⟨l, c, stopped⟩] } :=
  ⟨h.1, h.2.1, by simp [List.filter_append, h.2.2.1], h.2.2.2⟩

/-- The calls of other runs are not in the books. -/
theorem Of.record_other (h : Of n (w, calls) b) (hl : l.run ≠ n) (c : RunCall) (stopped : Bool) :
    Of n (w, calls ++ [⟨l, c, stopped⟩]) b :=
  ⟨h.1, h.2.1, by simp [hl, List.filter_append, h.2.2.1], h.2.2.2⟩

/-- The beginning of a call is written down, and raises the stop flag at most. -/
theorem Of.begin_self (service : Service DeviceCall.Reply σ) (h : Of l.run (w, calls) b)
    (c : RunCall) : Near l.run
      ((w.accept service l c).1, calls ++ [⟨l, c, w.isStopped l.run⟩]) (b.note l c) := by
  rw [h.isStopped]
  exact (h.accept service l c).imp (·.record_self c _) (·.record_self c _)

/-- When a task of another run begins a call, the flag in the books is raised at most. -/
theorem Of.begin_other (service : Service DeviceCall.Reply σ) (h : Of n (w, calls) b)
    (hl : l.run ≠ n) (c : RunCall) : Near n
      ((w.accept service l c).1, calls ++ [⟨l, c, w.isStopped l.run⟩]) b :=
  (h.accept service l c).imp (·.record_other hl c _) (·.record_other hl c _)

/-- A call that is to be made lets the tours begin at most. -/
theorem Of.announce (h : Of n (w, calls) b) (l : Role) (c : RunCall) :
    Of n (w.announce l c, calls) b ∨ Of n (w.announce l c, calls) b.start := by
  cases c with
  | save context artifact => exact .inl (h.congr rfl rfl fun _ h => h)
  | tours =>
    by_cases hl : l.run = n
    · subst hl
      exact .inr (h.updateCrew_self _)
    · exact .inl (h.updateCrew_other hl _)
  | _ => exact .inl h

/-- The end of a call of another run does nothing to the books. -/
theorem Of.answer_other (service : Service DeviceCall.Reply σ) (h : Of n (w, calls) b)
    (hl : l.run ≠ n) (c : RunCall) : Of n ((w.answer service l c).1, calls) b := by
  have hanswers := w.answers service l c
  cases c with
  | update f => exact h.updateRun_other hl f
  | _ => exact h.congr (hanswers.runs_eq (by simp)) hanswers.crews_eq hanswers.active_subset

/-- The end of a call does to the books of its run what the call says, and brings a reply. -/
theorem Of.answer_self (service : Service DeviceCall.Reply σ) (h : Of l.run (w, calls) b)
    (c : RunCall) : Of l.run ((w.answer service l c).1, calls) (b.answered l c) ∧
      b.Replies c (w.answer service l c).2 := by
  have hanswers := w.answers service l c
  have hsame : (∀ f, c ≠ .update f) → Of l.run ((w.answer service l c).1, calls) b := fun hc =>
    h.congr (hanswers.runs_eq hc) hanswers.crews_eq hanswers.active_subset
  cases c with
  | update f => exact ⟨h.updateRun_self f, rfl⟩
  | device c => exact ⟨hsame (by simp), trivial⟩
  | retire =>
    have hrun : w.registry.run? l.run = some b.state := h.1
    refine ⟨?_, rfl⟩
    simp only [World.answer, hrun]
    refine ⟨hrun, h.2.1, h.2.2.1, fun e he hn => ?_⟩
    obtain ⟨hmem, hid⟩ := List.mem_filter.1 he
    exact List.mem_filter.2 ⟨h.2.2.2 e hmem hn, hid⟩
  | progress =>
    have hrun : w.registry.run? l.run = some b.state := h.1
    exact ⟨h, by simp [Replies, World.answer, hrun]⟩
  | tours =>
    have hcrew : w.crew? l.run = some b.crew := h.2.1
    exact ⟨h, by simp [Replies, World.answer, hcrew]⟩
  | _ => exact ⟨hsame (by simp), rfl⟩

/-- The end of a task of another run does nothing to the books. -/
theorem Of.finish_other (h : Of n (w, calls) b) (hl : l.run ≠ n) (ending : Option RoleResult) :
    Of n (w.finish l ending, calls) b := by
  cases l with
  | lead m => exact h.updateCrew_other hl _
  | tour m place id => exact h.updateCrew_other hl _

/-- When a task of the run ends, the books say so. -/
theorem Of.finish_self (h : Of l.run (w, calls) b) (ending : Option RoleResult) :
    Of l.run (w.finish l ending, calls) (b.finish l ending) := by
  cases l with
  | lead m => exact h.updateCrew_self _
  | tour m place id => exact h.updateCrew_self _

end Books

end DeviceSuite
