import DeviceSuite.Proofs.Device.Dispatch
import DeviceSuite.Run.Step

/-!
# What is done at an action node

The calls at an action node are those of its action, and after them those for a picture, if there is
a failure to be photographed. Whatever the device answers, what comes of the node is an outcome.
-/

namespace DeviceSuite

open DeviceSuite.Task

/-- An exchange with the device, as one of a run. -/
def Exchange.onDevice (x : Exchange DeviceCall.Reply) : Exchange RunCall.Reply :=
  ⟨.device x.call, x.began, x.ended, x.reply⟩

variable {σ α : Type} {s : Service RunCall.Reply σ} {m : Moment σ}

namespace RunTask

/-- A task of the device makes the same exchanges as one of a run. -/
theorem exchanges_onDevice (t : DeviceTask α) : (onDevice t).exchanges s m =
    (t.exchanges (s.along RunCall.device fun _ r => r) m).map Exchange.onDevice := by
  induction t generalizing m with
  | done a => rfl
  | crash => rfl
  | clock next ih => exact ih _
  | stopRequested next ih => exact ih _
  | pause ms next ih => exact ih _
  | giveWay next ih => exact ih
  | call c next ih =>
    have hrecord : s.record m (.device c) =
        ((s.along RunCall.device fun _ r => r).record m c).onDevice := by
      simp [Service.record, Exchange.onDevice, Service.exchange, Service.along]
    exact congrArg₂ List.cons hrecord (ih _)

/-- A task of the device goes in a run as it goes by itself. -/
theorem goes_onDevice {t : DeviceTask α}
    {Q : List (Exchange RunCall.Reply) → Option α → Moment σ → Prop}
    (h : t.Goes (s.along RunCall.device fun _ r => r) m
      fun calls r m' => Q (calls.map Exchange.onDevice) r m') : (onDevice t).Goes s m Q := by
  rw [Goes, exchanges_onDevice, onDevice, runAlone_embed]
  exact h

/-- A call to the device is one call of the run. -/
theorem goes_ask_device (c : DeviceCall) : (onDevice (ask c)).Goes s m fun log r _ =>
    ∃ x, log = [x] ∧ x.call = .device c ∧ (r = none → x.reply = none) :=
  goes_onDevice (goes_ask.2 ⟨_, rfl, rfl, id⟩)

end RunTask

namespace SlotPlan

variable {p : SlotPlan} {n : Node} {options : StepOptions}

/-- An action has failed, and its failure is to be photographed: it is not that of a stop, and
pictures of failures are taken and kept. -/
def Photographs (p : SlotPlan) (result : Except DeviceError Outcome) : Prop :=
  p.settings.captureOnFailure = true ∧ p.keepsArtifacts = true ∧
    ((∃ o, result = .ok o ∧ o.success = false) ∨ ∃ e, result = .error e ∧ e ≠ .stopped)

/-- A picture is taken exactly when the failure is to be photographed. -/
theorem photographs_iff {result : Except DeviceError Outcome} :
    (!(Outcome.verdict result).1.success && !(Outcome.verdict result).2 &&
      p.settings.captureOnFailure && p.keepsArtifacts) = true ↔ p.Photographs result := by
  cases result with
  | ok o => simp [Outcome.verdict, Photographs, and_assoc, and_left_comm, and_comm]
  | error e =>
    simp [Outcome.verdict, Outcome.failed, Photographs, and_left_comm, and_comm]

/-- The calls for a picture: the device takes one, and it is saved. -/
def Shoots (p : SlotPlan) (n : Node) (picture : List (Exchange RunCall.Reply)) : Prop :=
  ∃ shot saved, picture = shot :: saved ∧ shot.call = .device .screenshot ∧ saved.length ≤ 1 ∧
    ∀ x ∈ saved, ∃ artifact, x.call = .save p.context artifact ∧
      artifact.kind = .failureScreenshot ∧ artifact.nodeId = some n.id

/-- Without a result a call for the picture is not answered. -/
theorem goes_photograph : (p.photograph n).Goes s m fun picture r _ =>
    p.Shoots n picture ∧ (r = none → ∃ x ∈ picture, x.reply = none) := by
  rw [photograph, goes_bind]
  refine (RunTask.goes_ask_device _).mono fun log r m₁ h => ?_
  obtain ⟨shot, rfl, hcall, hshot⟩ := h
  have halone : p.Shoots n [shot] := ⟨shot, [], rfl, hcall, Nat.zero_le _, List.forall_mem_nil _⟩
  rcases r with _ | e | bytes
  · exact ⟨halone, fun _ => ⟨shot, List.mem_singleton_self _, hshot rfl⟩⟩
  · exact ⟨halone, nofun⟩
  · dsimp only [Option.elim]
    rw [RunTask.instant, goes_bind, goes_now_bind, goes_pure]
    dsimp only [Option.elim]
    rw [goes_bind, goes_ask]
    generalize hartifact : Artifact.mk _ _ _ _ = artifact
    have hboth : p.Shoots n ([shot] ++ ([] ++ [s.record m₁ (.save p.context artifact)])) := by
      refine ⟨shot, _, rfl, hcall, Nat.le_refl _, List.forall_mem_singleton.2 ⟨artifact, rfl, ?_⟩⟩
      exact hartifact ▸ ⟨rfl, rfl⟩
    cases hreply : (s.exchange m₁ (RunCall.save p.context artifact)).1 with
    | none =>
      have hsaved := List.mem_cons_of_mem shot
        (List.mem_singleton_self (s.record m₁ (.save p.context artifact)))
      exact ⟨hboth, fun _ => ⟨_, hsaved, hreply⟩⟩
    | some reply => cases reply <;> exact ⟨hboth, nofun⟩

/-- What is done at an action node: the calls of its action, the calls for a picture, and what comes
of the node. -/
structure Dispatched (p : SlotPlan) (n : Node) (options : StepOptions) (m : Moment σ)
    (calls : List (Exchange DeviceCall.Reply)) (came : Option (Except DeviceError Outcome))
    (picture : List (Exchange RunCall.Reply)) (r : Option (Outcome × Option String)) : Prop where
  acts : ∃ m', n.Dispatches p.settings options m calls came m'
  shot : (∃ result ∈ came, p.Photographs result) → p.Shoots n picture
  unshot : (∀ result ∈ came, ¬ p.Photographs result) → picture = []
  /-- The outcome is that of the action, whatever it is, and it has the time that it took. -/
  told : ∀ outcome path, r = some (outcome, path) → ∃ result ∈ came,
    (∃ elapsed, outcome = (Outcome.verdict result).1.timed elapsed) ∧ (picture = [] → path = none)
  counted : ∀ c o outcome path, n.action = .ok (.perform c) → came = some (.ok o) →
    r = some (outcome, path) → ∃ q, outcome.performance = some q ∧
      q.attempts.map UInt32.toNat = some calls.length
  crashed : r = none → (∃ x ∈ calls.map Exchange.onDevice ++ picture, x.reply = none) ∨
    calls.length = maxPolls ∧ ∃ t present, n.action = .ok (.await t present)

namespace Dispatched

variable {calls : List (Exchange DeviceCall.Reply)} {m' : Moment σ}

/-- An action that comes to nothing is the end. -/
theorem of_crash (h : n.Dispatches p.settings options m calls none m') :
    p.Dispatched n options m calls none [] none where
  acts := ⟨m', h⟩
  shot := nofun
  unshot _ := rfl
  told _ _ hr := by cases hr
  counted _ _ _ _ _ hcame := by cases hcame
  crashed _ := h.crashed.imp_left fun ⟨x, hx, hreply⟩ =>
    ⟨x.onDevice, List.mem_append_left _ (List.mem_map_of_mem hx), hreply⟩

/-- The time that is added to an outcome leaves the number of its attempts. -/
theorem of_result (elapsed : Nat) (path : Option (Option String))
    {result : Except DeviceError Outcome} {picture : List (Exchange RunCall.Reply)}
    (h : n.Dispatches p.settings options m calls (some result) m')
    (hshot : p.Photographs result → p.Shoots n picture)
    (hunshot : ¬ p.Photographs result → picture = [] ∧ path = some none)
    (hcrash : path = none → ∃ x ∈ picture, x.reply = none) :
    p.Dispatched n options m calls (some result) picture
      (path.map fun path => ((Outcome.verdict result).1.timed elapsed, path)) where
  acts := ⟨m', h⟩
  shot := by
    rintro ⟨_, ⟨⟩, hfails⟩
    exact hshot hfails
  unshot hnone := (hunshot (hnone result rfl)).1
  told outcome path' hr := by
    obtain ⟨_, rfl, hpair⟩ := Option.map_eq_some_iff.1 hr
    cases hpair
    refine ⟨result, rfl, ⟨elapsed, rfl⟩, fun hempty => ?_⟩
    have hkept : ¬ p.Photographs result := fun hfails => by
      obtain ⟨shot, saved, hpicture, -⟩ := hshot hfails
      cases hempty.symm.trans hpicture
    exact Option.some.inj (hunshot hkept).2
  counted c o outcome path' hc hresult hr := by
    cases hresult
    obtain ⟨_, -, hpair⟩ := Option.map_eq_some_iff.1 hr
    cases hpair
    obtain ⟨q, hq, hattempts⟩ := h.counted hc rfl
    refine ⟨_, rfl, ?_⟩
    dsimp only [Outcome.verdict]
    rwa [hq]
  crashed hr := by
    obtain ⟨x, hx, hreply⟩ := hcrash (Option.map_eq_none_iff.1 hr)
    exact .inl ⟨x, List.mem_append_right _ hx, hreply⟩

end Dispatched

/-- At an action node only the call of its action is made, as often as its kind of action demands,
and after it the calls for a picture, if the action has failed and not by a stop. Whatever the
device answers, an outcome comes of it. -/
theorem conduct_dispatches (s : Service RunCall.Reply σ) (p : SlotPlan) (n : Node)
    (options : StepOptions) (m : Moment σ) :
    (p.conduct n options).Goes s m fun log r _ => ∃ calls came picture,
      log = calls.map Exchange.onDevice ++ picture ∧
        p.Dispatched n options m calls came picture r := by
  rw [conduct, goes_bind]
  refine RunTask.goes_onDevice ?_
  rw [Node.conduct_eq, goes_now_bind, goes_bind]
  refine (n.goes_attempt p.settings options).mono fun calls came m₁ hacts => ?_
  cases came with
  | none => exact ⟨calls, none, [], (List.append_nil _).symm, .of_crash hacts⟩
  | some result =>
    dsimp only [Option.elim]
    rw [goes_now_bind, goes_pure, List.append_nil]
    dsimp only [Option.elim]
    split
    · next hphotographed =>
      have hfails := photographs_iff.1 hphotographed
      rw [goes_bind]
      refine goes_photograph.mono fun picture path m₂ hpicture => ?_
      have hdispatched := Dispatched.of_result (m₁.now - m.now) path hacts (fun _ => hpicture.1)
        (fun hnot => absurd hfails hnot) hpicture.2
      cases path with
      | none => exact ⟨calls, some result, picture, rfl, hdispatched⟩
      | some path =>
        rw [Option.elim, goes_pure, List.append_nil]
        exact ⟨calls, some result, picture, rfl, hdispatched⟩
    · next hphotographed =>
      have hkept : ¬ p.Photographs result := fun hfails =>
        hphotographed (photographs_iff.2 hfails)
      have hdispatched := Dispatched.of_result (m₁.now - m.now) (some none) hacts
        (fun hfails => absurd hfails hkept) (fun _ => ⟨rfl, rfl⟩) nofun
      exact ⟨calls, some result, [], rfl, hdispatched⟩

end SlotPlan

end DeviceSuite
