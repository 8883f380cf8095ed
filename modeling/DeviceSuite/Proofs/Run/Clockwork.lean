import DeviceSuite.Proofs.Run.Sight
import DeviceSuite.Proofs.Task.Unfolding

/-!
# The clock of the world

No part of a call of a task takes time, and a stop flag that is raised stays raised. So the calls of
the tasks go at their pace: those that are not answered in time are answered at once.
-/

namespace DeviceSuite

variable {σ : Type} {n : Nat} {b : Beat} {w w' : World σ}

namespace Registry

variable {r : Registry}

/-- A flag that is raised stays raised whichever run is stopped. -/
theorem raised_requestStop (h : (r.run? n).any RunState.stopRequested = true) (m : Nat) :
    ((r.update m RunState.requestStop).run? n).any RunState.stopRequested = true := by
  rw [update_run?]
  split
  · obtain ⟨state, hstate, -⟩ := (Option.any_eq_true _ _).1 h
    rw [hstate]
    rfl
  · exact h

/-- A flag that is raised stays so when another run is stopped. -/
theorem raised_stop (h : (r.run? n).any RunState.stopRequested = true) (runId : String) :
    ((r.stop runId).run? n).any RunState.stopRequested = true := by
  rw [stop]
  split
  · exact h
  · exact raised_requestStop h _

end Registry

namespace World

/-- A world shows how late it is, and whether the flag of a run is raised. -/
def Shows (n : Nat) (w : World σ) (b : Beat) : Prop :=
  w.now = b.now ∧ w.isStopped n = b.raised.isSome

/-- It is as late as before, and the flag may have been raised. -/
def Holds (n : Nat) (b : Beat) (w : World σ) : Prop := ∃ b', b.Still b' ∧ w.Shows n b'

/-- What a world shows holds in it. -/
theorem Shows.holds (h : w.Shows n b) : w.Holds n b := ⟨b, .refl b, h⟩

/-- A flag is raised where it was not, or is as it was. -/
theorem Shows.holds_of (h : w.Shows n b) (hnow : w'.now = w.now)
    (hflag : w.isStopped n = true → w'.isStopped n = true) : w'.Holds n b := by
  have hnow' : w'.now = b.now := hnow.trans h.1
  cases hraised : w.isStopped n with
  | true => exact ⟨b, .refl b, hnow', (hflag hraised).trans (hraised.symm.trans h.2)⟩
  | false =>
    have hb : b.raised = none := by simpa [hraised] using h.2
    cases hraised' : w'.isStopped n with
    | true =>
      have hstill : b.Still ⟨b.now, some b.now⟩ :=
        ⟨Beat.later_of_raised hb (Nat.le_refl _), rfl⟩
      exact ⟨_, hstill, hnow', hraised'⟩
    | false => exact ⟨b, .refl b, hnow', by rw [hraised', hb]; rfl⟩

/-- A device that asks for something raises flags at most. -/
theorem Holds.heed (h : w.Holds n b) (signal : Signal) : (w.heed signal).Holds n b := by
  obtain ⟨b', hb', hshows⟩ := h
  cases signal with
  | snapshot => exact ⟨b', hb', hshows⟩
  | stop =>
    have hflag : w.isStopped n = true → w.stopAll.isStopped n = true := fun hraised =>
      List.foldlRecOn (motive := fun r : Registry => (r.run? n).any RunState.stopRequested = true)
        _ _ hraised fun r hr entry _ => Registry.raised_stop hr entry.1
    have hnow : w.stopAll.now = w.now := rfl
    obtain ⟨b'', hb'', hshows'⟩ := hshows.holds_of hnow hflag
    exact ⟨b'', hb'.trans hb'', hshows'⟩

variable (service : Service DeviceCall.Reply σ) (l : Role) {c : RunCall}

/-- To announce a call takes no time. -/
theorem Holds.announce (h : w.Holds n b) (c : RunCall) : (w.announce l c).Holds n b := by
  cases c <;> exact h

/-- To accept a call takes no time. -/
theorem Holds.accept (h : w.Holds n b) (c : RunCall) : (w.accept service l c).1.Holds n b :=
  accept_keeps service l c (fun _ _ hw => hw) (fun _ signal hw => hw.heed signal) h

/-- A steady call leaves all flags as they are. -/
theorem answer_isStopped (hc : c.Steady) :
    (w.answer service l c).1.isStopped n = w.isStopped n := by
  have hanswers := w.answers service l c
  cases c with
  | update f =>
    simp only [World.answer, updateRun, isStopped, Registry.update_run?]
    split
    · cases w.registry.run? n with
      | none => rfl
      | some state => exact (hc f rfl state).2
    · rfl
  | _ => simp [isStopped, Registry.run?, hanswers.runs_eq]

/-- To answer a steady call takes no time, and lowers no flag. -/
theorem Holds.answer (h : w.Holds n b) (hc : c.Steady) : (w.answer service l c).1.Holds n b := by
  obtain ⟨b', hb', hnow, hflag⟩ := h
  exact ⟨b', hb', (w.answers service l c).now_eq.trans hnow,
    (answer_isStopped service l hc).trans hflag⟩

/-- When a task ends, no time passes and no flag is lowered. -/
theorem Holds.finish (h : w.Holds n b) (ending : Option RoleResult) :
    (w.finish l ending).Holds n b := by
  cases l <;> exact h

/-- The calls of a task go at their pace. -/
theorem paces : (host service).Paces l RunCall.pace RunCall.Steady where
  announced := by
    intro w b c _ h
    cases c <;> exact h
  accepted _ h := Holds.accept service l (Shows.holds h) _
  answered hc h := Holds.answer service l (Shows.holds h) hc
  finished := by
    intro w b r h
    cases l <;> exact h
  admitted := by
    intro c hc w
    cases c <;> first | rfl | cases hc
  instant := by
    intro c hc w
    cases c <;> first | rfl | cases hc

/-- A task that takes its turn takes no time. -/
theorem Holds.resume (h : w.Holds n b) {strand : Strand RunCall.Reply RoleResult}
    (able : (host service).isAble w l strand = true)
    (hm : strand.Makes RunCall.Steady fun _ => True) :
    ((host service).resume l strand w).1.Holds n b := by
  have hkeeps : (host service).Keeps l RunCall.Steady (Holds n b) (fun _ => Holds n b)
      fun _ => Holds n b :=
    Host.keeps_of_phases (fun _ c _ hw => hw.announce l c)
      (fun _ c _ hw _ => hw.accept service l c) fun _ _ hc hw => hw.answer service l hc
  have hstands : strand.Stands (Holds n b) (fun _ => Holds n b) (fun _ => Holds n b) w := by
    cases strand <;> first | exact h | trivial
  exact (hkeeps.resume able hm hstands).2.shared (fun _ hw => hw) (fun _ _ hw => hw)
    (fun _ _ hw => hw) fun _ r hw => hw.finish l r

end World

end DeviceSuite
