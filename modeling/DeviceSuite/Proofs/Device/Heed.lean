import DeviceSuite.Device.Conduct
import DeviceSuite.Proofs.Task.Loops

/-!
# Devices heed the stop flag

Commands are retried, waits and conditions look again, and a pause goes on for a time. If a command
or a look may be made wherever the stop flag is known not to be raised, then an action and a
condition may be carried out from there, however often they try.
-/

namespace DeviceSuite

/-- The calls that work a device: commands, and looks at its screen. -/
def DeviceCall.Acts : DeviceCall → Prop
  | perform _ | locate _ => True
  | _ => False

section

variable {V : Type} {T : Terms DeviceCall.Reply V} {J F X : V → Prop} {v : V}

/-- Whoever keeps `J` may work a device where the flag is not raised, which is what `F` says, and
keeps `J` by it. -/
structure Task.Heeds (T : Terms DeviceCall.Reply V) (J F X : V → Prop) : Prop where
  drift : ∀ {v v'}, J v → T.drifts v v' → J v'
  free : ∀ {v}, J v → T.reads v false → F v
  keeps : ∀ {v}, F v → J v
  crash : ∀ {v}, J v → X v
  call : ∀ (c : DeviceCall) {v}, c.Acts → F v →
    (Task.ask c).Abides T (Task.Upon X fun _ => J) v

open DeviceSuite.Task

/-- A command is carried out from where the stop flag is not raised. -/
theorem Command.abides_conduct (h : Heeds T J F X) (c : Command) (policy : RetryPolicy)
    (hv : F v) : (c.conduct policy).Abides T (Upon X fun _ => J) v := by
  rw [conduct]
  apply Task.Abides.now_bind
  intro started
  have hattempt : ∀ i {v}, F v → Task.Abides T (Upon X fun _ => J)
      (do return (← ask (DeviceCall.perform c)).map fun outcome => (i, outcome) :
        DeviceTask (Except DeviceError (Nat × Outcome))) v := fun i v hv =>
    (h.call (.perform c) trivial hv).bind fun _ v hv => hv
  apply (abides_retry h.drift h.free hattempt policy hv).bind
  intro r v hv
  cases r with
  | error e => exact hv
  | ok x => exact fun ms => hv

/-- A look begins where the stop flag is not raised. -/
theorem Target.abides_look (h : Heeds T J F X) (t : Target) (present : Bool) (hv : F v) :
    (t.look present).Abides T (Upon X fun _ => J) v := by
  rw [look]
  apply (h.call (.locate t) trivial hv).bind
  intro r v hv
  cases r with
  | error e => exact hv
  | ok finding => exact hv

/-- A wait begins anywhere, since it reads the stop flag before each look. -/
theorem Target.abides_await (h : Heeds T J F X) (t : Target) (present : Bool)
    (policy : PollPolicy) (hv : J v) :
    (t.await present policy).Abides T (Upon X fun _ => J) v := by
  rw [await]
  have hlook : ∀ {v}, F v → (t.look present).Abides T (Upon X fun _ => J) v := fun hv =>
    t.abides_look h present hv
  exact (abides_pollUntil h.drift h.free h.crash hlook policy hv).bind fun _ v hv => hv

namespace Action

/-- A rest may begin anywhere: it calls nothing. -/
theorem abides_rest (h : Heeds T J F X) (ms : UInt64) (hv : J v) :
    (rest ms).Abides T (Upon X fun _ => J) v := by
  rw [rest]
  apply Task.Abides.now_bind
  intro started
  apply Task.Abides.sleep_bind
  intro v' stopped hd _
  cases stopped with
  | true => exact h.drift hv hd
  | false => exact fun ms => h.drift hv hd

/-- An action is carried out from where the stop flag is not raised. -/
theorem abides_conduct (h : Heeds T J F X) (a : Action) (settings : Settings)
    (options : StepOptions) (hv : F v) :
    (a.conduct settings options).Abides T (Upon X fun _ => J) v := by
  cases a with
  | perform command => exact command.abides_conduct h _ hv
  | pause ms => exact abides_rest h ms (h.keeps hv)
  | await target present => exact target.abides_await h present _ (h.keeps hv)

end Action

/-- A condition is looked at from where the stop flag is not raised. -/
theorem Condition.abides_holds (h : Heeds T J F X) (c : Condition) (policy : RetryPolicy)
    (hv : F v) : (c.holds policy).Abides T (Upon X fun _ => J) v := by
  rw [holds]
  have hlook : ∀ (_ : Nat) {v : V}, F v →
      (ask (DeviceCall.locate c.target)).Abides T (Upon X fun _ => J) v := fun _ _ hv =>
    h.call (.locate c.target) trivial hv
  apply (abides_retry h.drift h.free hlook policy hv).bind
  intro r v hv
  cases r with
  | error e => exact hv
  | ok finding => exact hv

namespace Node

/-- A node is carried out from where the stop flag is not raised. -/
theorem abides_conduct (h : Heeds T J F X) (n : Node) (settings : Settings)
    (options : StepOptions) (hv : F v) :
    (n.conduct settings options).Abides T (Upon X fun _ => J) v := by
  rw [conduct]
  apply Task.Abides.now_bind
  intro started
  cases n.action with
  | error e => exact fun ms => h.keeps hv
  | ok action => exact (action.abides_conduct h settings options hv).bind fun _ v hv ms => hv

/-- A node is evaluated from where the stop flag is not raised. -/
theorem abides_evaluate (h : Heeds T J F X) (n : Node) (settings : Settings)
    (options : StepOptions) (hv : F v) :
    (n.evaluate settings options).Abides T (Upon X fun _ => J) v := by
  rw [evaluate]
  split
  · exact Condition.abides_holds h _ _ hv
  · exact h.keeps hv

end Node

end

/-! ## What works a device -/

/-- The terms of a task that may make certain calls, and counts on nothing. -/
def Terms.only {C : Type} {R : C → Type} (H : C → Prop) : Terms R Unit :=
  { Terms.free with may := fun _ => H }

/-- A task that counts on nothing makes only the calls that its terms allow. -/
theorem Task.Abides.only {C : Type} {R : C → Type} {α : Type} {H : C → Prop} {t : Task R α}
    {Q : Unit → Option α → Prop} {v : Unit} (h : t.Abides (.only H) Q v) :
    t.Only H fun _ => True := by
  induction t with
  | done a => trivial
  | crash => trivial
  | clock next ih => exact fun ms => ih ms (h ms)
  | stopRequested next ih => exact fun b => ih b (h b trivial)
  | pause ms next ih => exact fun b => ih b (Bool.not_not b ▸ h () (!b) trivial trivial)
  | giveWay next ih => exact ih (h () trivial)
  | call c next ih =>
    obtain ⟨hmay, hnext⟩ := h () trivial
    exact ⟨hmay, fun r => ih r (hnext () () r () trivial trivial trivial)⟩

/-- Whoever may make these calls only may work a device. -/
theorem Task.heeds_only : Task.Heeds (.only DeviceCall.Acts) (fun _ => True) (fun _ => True)
    fun _ => True where
  drift _ _ := trivial
  free _ _ := trivial
  keeps _ := trivial
  crash _ := trivial
  call c _ hc _ := Task.abides_ask.2 fun _ _ => ⟨hc, fun _ _ r _ _ _ _ => by cases r <;> trivial⟩

/-- The action of a node is made of commands and looks. -/
theorem Node.only_conduct (n : Node) (settings : Settings) (options : StepOptions) :
    (n.conduct settings options).Only DeviceCall.Acts fun _ => True :=
  (n.abides_conduct (v := ()) Task.heeds_only settings options trivial).only

/-- A condition does nothing but work the device. -/
theorem Node.only_evaluate (n : Node) (settings : Settings) (options : StepOptions) :
    (n.evaluate settings options).Only DeviceCall.Acts fun _ => True :=
  (n.abides_evaluate (v := ()) Task.heeds_only settings options trivial).only

end DeviceSuite
