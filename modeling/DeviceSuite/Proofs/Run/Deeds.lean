import DeviceSuite.Proofs.Run.Touring

/-!
# What a tour may do

A tour talks to its device, saves pictures, has videos recorded and tells events. In the state of
its run it changes nothing but the progress of its device, and the only context that it registers
is its own.
-/

namespace DeviceSuite

namespace RunCall

/-- The calls of the tour with a context. -/
def OfTour (context : Context) : RunCall → Prop
  | device _ | save _ _ | startVideo _ | stopVideo _ | emit _ | progress => True
  | update f => (∃ g, f = fun s => s.updateDevice context.deviceId g) ∨
    f = fun s => s.completeSlot context.deviceId
  | register c | unregister c => c = context
  | begun | tours | archive _ | retire => False

/-- A call that leaves the status of the run as it is. -/
def KeepsStatus (c : RunCall) : Prop :=
  ∀ f, c = .update f → ∀ s : RunState, (f s).status = s.status

variable {context : Context} {c : RunCall}

/-- A call of a tour is steady. -/
theorem OfTour.steady (h : c.OfTour context) : c.Steady := by
  rintro f rfl
  rcases h with ⟨g, rfl⟩ | rfl
  · exact steady_updateDevice _ g _ rfl
  · exact steady_completeSlot _ _ rfl

/-- A call of a tour leaves the status of the run as it is. -/
theorem OfTour.keepsStatus (h : c.OfTour context) : c.KeepsStatus := by
  rintro f rfl s
  rcases h with ⟨g, rfl⟩ | rfl <;> rfl

/-- A call of a slot is one of any tour. -/
theorem OfSlot.ofTour (h : c.OfSlot) (context : Context) : c.OfTour context := by
  cases c <;> trivial

end RunCall

namespace Tour

variable {t : Tour} {g : Graph} {k : Nat} {d : DeviceResult}

/-- To change the progress of its device is for a tour to do. -/
theorem does_updateDevice (f : DeviceProgress → DeviceProgress) :
    (t.updateDevice f).Only (RunCall.OfTour t.context) fun _ => True :=
  RunTask.only_call (.inl ⟨f, rfl⟩)

/-- To skip a slot is for a tour to do. -/
theorem does_skip : (t.skip g k d).Only (RunCall.OfTour t.context) fun _ => True := by
  simp only [skip, settle, Task.only_bind, RunTask.only_instant, RunTask.only_update,
    Task.only_pure]
  exact fun ms => ⟨.inr rfl, fun _ => trivial⟩

/-- To run a slot is for a tour to do. -/
theorem does_visit : (t.visit g k d).Only (RunCall.OfTour t.context) fun _ => True := by
  simp only [visit, announce, settle, Task.only_bind, RunTask.only_update, RunTask.only_emit,
    RunTask.only_instant, Task.only_ask, Task.only_pure]
  apply (does_updateDevice _).mono
  refine fun _ _ ms => ⟨trivial, fun _ => ⟨trivial, fun percent => ⟨trivial, fun _ => ?_⟩⟩⟩
  apply ((only_film k).weaken fun _ h => h.1.ofTour t.context).mono
  exact fun r _ => ⟨trivial, fun _ => ⟨.inr rfl, fun _ => t.only_rest k⟩⟩

/-- To go through its slots is for a tour to do. -/
theorem does_slots (left : Nat) :
    (t.slots left k d).Only (RunCall.OfTour t.context) fun _ => True := by
  induction left generalizing k d with
  | zero => trivial
  | succ left ih =>
    rw [slots]
    split
    · trivial
    · apply Task.only_bind.2
      intro stopped
      cases stopped with
      | true => exact Task.only_bind.2 (does_skip.mono fun d' _ => ih)
      | false => exact Task.only_bind.2 (does_visit.mono fun d' _ => ih)

/-- To work through its slots while it is registered is for a tour to do. -/
theorem does_work : (t.work d).Only (RunCall.OfTour t.context) fun _ => True := by
  have hregister : (RunCall.register t.context).OfTour t.context := rfl
  have hunregister : (RunCall.unregister t.context).OfTour t.context := rfl
  exact Task.only_bind.2 ((RunTask.only_call hregister).mono fun _ _ =>
    (does_slots t.size).ensuring (RunTask.only_call hunregister))

/-- A tour does nothing but what belongs to it. -/
theorem does_conduct (t : Tour) : t.conduct.Only (RunCall.OfTour t.context) fun _ => True := by
  have hdevice : ∀ {α : Type} (task : DeviceTask α),
      (RunTask.onDevice task).Only (RunCall.OfTour t.context) fun _ => True := fun task =>
    (RunTask.only_onDevice task).weaken fun _ h => h.ofStep.ofSlot.ofTour t.context
  rw [conduct]
  apply Task.only_bind.2
  apply (hdevice _).mono
  rintro (e | environment) _
  · trivial
  · simp only [Task.only_bind, RunTask.only_instant, RunTask.only_emit, Task.only_pure]
    apply (hdevice _).mono
    intro appInfo _
    apply (does_updateDevice _).mono
    refine fun _ _ ms => ⟨trivial, fun _ => ?_⟩
    apply does_work.mono
    intro d _
    apply (does_updateDevice _).mono
    exact fun _ _ => ⟨trivial, fun _ => trivial⟩

end Tour

end DeviceSuite
