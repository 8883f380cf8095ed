import DeviceSuite.Proofs.Device.Timing
import DeviceSuite.Proofs.Run.Exertion
import DeviceSuite.Proofs.Run.Logbook

/-!
# The time of a slot

A step is timed from before it is told to begin until its action is over and the picture of its
failure is saved. Nothing else in a walk takes time, since an event is told at once. So the times of
the records add up to the time of the slot. Of that, a record that a step waits or is skipped takes
nothing, and an action tells of no more time than its record has.
-/

namespace DeviceSuite

open DeviceSuite.Task

/-- To tell an event takes no time. -/
def Service.TellsAtOnce {σ : Type} (s : Service RunCall.Reply σ) : Prop :=
  ∀ now state e, (s.accept now state (.emit e)).latency = 0

/-- What a record of a node says of time: a step that waits or is skipped takes none, and the action
of a step that has ended tells a time, which is no longer than that of its record. -/
structure Node.Times (n : Node) (step : StepResult) : Prop where
  isOf : step.IsOf n
  idle : step.status = .waiting ∨ step.status = .skipped → step.durationMs = 0
  within : n.kind = .action → step.IsTerminal →
    ∃ p, step.performance = some p ∧ p.totalMs ≤ step.durationMs

/-- Records of nodes of a graph have been added, which account for a time. -/
def Accounted (g : Graph) (before after : List StepResult) (ms : Nat) : Prop :=
  ∃ (entries : List (Node × StepResult)) (times : List Nat),
    after = before ++ entries.map Prod.snd ∧ (∀ e ∈ entries, e.1 ∈ g.nodes ∧ e.1.Times e.2) ∧
    entries.map (fun e => e.2.durationMs) = times.map millis ∧ times.sum = ms

namespace Accounted

variable {g : Graph} {before between after : List StepResult} {ms ms' : Nat}

/-- No records account for no time. -/
theorem refl (g : Graph) (steps : List StepResult) : Accounted g steps steps 0 :=
  ⟨[], [], (List.append_nil _).symm, List.forall_mem_nil _, rfl, rfl⟩

/-- Records after others account for the time of both. -/
theorem trans (h : Accounted g before between ms) (h' : Accounted g between after ms') :
    Accounted g before after (ms + ms') := by
  obtain ⟨entries, times, rfl, hentries, htimes, rfl⟩ := h
  obtain ⟨more, moreTimes, rfl, hmore, hmoreTimes, rfl⟩ := h'
  refine ⟨entries ++ more, times ++ moreTimes, ?_, List.forall_mem_append.2 ⟨hentries, hmore⟩, ?_,
    List.sum_append⟩
  · rw [List.map_append, List.append_assoc]
  · rw [List.map_append, List.map_append, htimes, hmoreTimes]

/-- One record accounts for the time that it tells. -/
theorem single {n : Node} {step : StepResult} (hn : n ∈ g.nodes) (hstep : n.Times step)
    (hms : step.durationMs = millis ms) (steps : List StepResult) :
    Accounted g steps (steps ++ [step]) ms :=
  ⟨[(n, step)], [ms], rfl, List.forall_mem_singleton.2 ⟨hn, hstep⟩, by simp [hms], by simp⟩

end Accounted

/-- What is counted of times and of their sum is the same as of what is counted of each. -/
theorem millis_sum (times : List Nat) :
    millis (times.map fun ms => (millis ms).toNat).sum = millis times.sum := by
  have hcap (ms : Nat) : min (times.map fun ms => (millis ms).toNat).sum (UInt64.size - 1) =
      min times.sum (UInt64.size - 1) := by
    induction times with
    | nil => rfl
    | cons ms rest ih =>
      rw [List.map_cons, List.sum_cons, List.sum_cons, toNat_millis]
      omega
  rw [millis, millis, hcap 0]

/-- Times that are told account for no more than has passed. -/
theorem sum_millis_le (times : List Nat) :
    (times.map fun ms => (millis ms).toNat).sum ≤ times.sum := by
  induction times with
  | nil => exact Nat.le_refl _
  | cons ms rest ih =>
    rw [List.map_cons, List.sum_cons, List.sum_cons, toNat_millis]
    omega

namespace RunTask

variable {σ α : Type} {s : Service RunCall.Reply σ} {m : Moment σ}

/-- What follows on an event follows at the same instant. -/
theorem reaches_emit_bind (hs : s.TellsAtOnce) {e : Event} {f : Unit → RunTask α}
    {Q : α → Moment σ → Prop} (h : ∀ m', m'.now = m.now → (f ()).Reaches s m' Q) :
    (emit e >>= f).Reaches s m Q := by
  have hnow : (s.exchange m (.emit e)).2.now = m.now := by
    rw [Service.now_exchange, hs, Nat.add_zero]
  rw [reaches_bind]
  apply Goes.reaches
  apply goes_ask.2
  rintro _ -
  exact h _ hnow

/-- A task of the device reaches in a run what it reaches by itself. -/
theorem reaches_onDevice {t : DeviceTask α} {Q : α → Moment σ → Prop}
    (h : t.Reaches (s.along RunCall.device fun _ r => r) m Q) : (onDevice t).Reaches s m Q :=
  reaches_embed.2 h

end RunTask

namespace SlotPlan

variable {σ : Type} {s : Service RunCall.Reply σ} {m : Moment σ} {p : SlotPlan} {g : Graph}
  {n : Node} {options : StepOptions}

/-- The records that a step has added account for what has passed since it began. -/
def KeepsTime (g : Graph) (result : ScenarioResult) (started : Nat) (x : ScenarioResult × Flow)
    (m' : Moment σ) : Prop :=
  Accounted g result.stepResults x.1.stepResults (m'.now - started)

/-- To tell a record takes no time. -/
theorem reaches_complete (hs : s.TellsAtOnce) (result : ScenarioResult) (step : StepResult) :
    (p.complete result step).Reaches s m fun r m' =>
      m'.now = m.now ∧ r.stepResults = result.stepResults ++ [step] :=
  RunTask.reaches_emit_bind hs fun _ hnow => reaches_pure.2 ⟨hnow, rfl⟩

/-- A picture of a failure may take its time after the action. -/
theorem reaches_conduct :
    (p.conduct n options).Reaches s m fun x m' =>
      ∃ q, x.1.performance = some q ∧ q.totalMs ≤ millis (m'.now - m.now) := by
  rw [conduct, reaches_bind]
  refine (RunTask.reaches_onDevice (n.reaches_conduct p.settings options)).mono fun x m₁ hx => ?_
  obtain ⟨q, hq, hle⟩ := hx
  have hpicture (t : RunTask (Option String)) :
      (do return (x.1, ← t) : RunTask (Outcome × Option String)).Reaches s m₁ fun x m' =>
        ∃ q, x.1.performance = some q ∧ q.totalMs ≤ millis (m'.now - m.now) := by
    rw [reaches_bind]
    refine (reaches_later s t m₁).mono fun picture m₂ hlater => reaches_pure.2 ⟨q, hq, ?_⟩
    exact UInt64.le_trans hle (millis_mono (Nat.sub_le_sub_right hlater _))
  dsimp only
  split
  · exact hpicture (p.photograph n)
  · exact hpicture (pure none)

/-- A record that a step waits tells no time. -/
theorem times_waiting (n : Node) (time : Instant) :
    n.Times (record n time .waiting 0 none none) where
  isOf := isOf_record ..
  idle _ := rfl
  within _ h := by rcases h with h | h <;> cases h

/-- To tell that a step waits takes no time, and none is accounted for. -/
theorem reaches_forewarn (hs : s.TellsAtOnce) (hn : n ∈ g.nodes) (started : Nat)
    (result : ScenarioResult) : (p.forewarn n started result).Reaches s m fun r m' =>
      m'.now = m.now ∧ Accounted g result.stepResults r.stepResults 0 := by
  rw [forewarn]
  split
  · refine RunTask.reaches_emit_bind hs fun m' hnow => reaches_pure.2 ⟨hnow, ?_⟩
    exact .single hn (times_waiting n _) rfl _
  · exact reaches_pure.2 ⟨rfl, .refl g _⟩

/-- A step that is concluded accounts for its time. -/
theorem reaches_conclude (hs : s.TellsAtOnce) (hn : n ∈ g.nodes) {started : Nat}
    {result : ScenarioResult} {outcome : Outcome} (picture : Option String) {ended : Nat}
    (houtcome : ∃ q, outcome.performance = some q ∧ q.totalMs ≤ millis (ended - started)) :
    (p.conclude n started result outcome picture ended).Reaches s m fun x m' =>
      m'.now = m.now ∧
        Accounted g result.stepResults x.1.stepResults (ended - started) := by
  have htimes (time : Instant) {status : StepStatus} (error : Option String)
      (hstatus : status = .passed ∨ status = .failed) :
      n.Times (record n time status (ended - started) error outcome.performance) := by
    refine ⟨isOf_record .., fun h => ?_, fun _ _ => houtcome⟩
    rcases hstatus with rfl | rfl <;> rcases h with h | h <;> cases h
  simp only [conclude]
  split
  · rw [reaches_bind]
    refine (reaches_complete hs _ _).mono fun r m' hr => reaches_pure.2 ⟨hr.1, ?_⟩
    exact hr.2 ▸ .single hn (htimes _ _ (.inl rfl)) rfl _
  · rw [reaches_bind]
    refine (reaches_complete hs _ _).mono fun r m' hr => reaches_pure.2 ⟨hr.1, ?_⟩
    exact hr.2 ▸ .single hn (htimes _ _ (.inr rfl)) rfl _

/-- An action accounts for the time that it takes. -/
theorem reaches_act (hs : s.TellsAtOnce) (hn : n ∈ g.nodes) (result : ScenarioResult) :
    (p.act n options m.now result).Reaches s m (KeepsTime g result m.now) := by
  rw [act_eq, reaches_bind]
  refine (reaches_forewarn hs hn m.now result).mono fun result' m₁ hwaiting => ?_
  obtain ⟨hnow, hwaiting⟩ := hwaiting
  rw [reaches_bind]
  refine reaches_conduct.mono fun x m₂ hx => ?_
  rw [reaches_now_bind]
  rw [hnow] at hx
  refine (reaches_conclude hs hn x.2 hx).mono fun y m₃ hy => ?_
  rw [KeepsTime, hy.1, ← Nat.zero_add (m₂.now - m.now)]
  exact hwaiting.trans hy.2

/-- A condition accounts for the time that it takes. -/
theorem reaches_decide (hs : s.TellsAtOnce) (hn : n ∈ g.nodes) (hkind : n.kind = .condition)
    (result : ScenarioResult) :
    (p.decide n options m.now result).Reaches s m (KeepsTime g result m.now) := by
  rw [decide, reaches_bind]
  refine (reaches_later s _ m).mono fun answer m₁ _ => ?_
  rw [reaches_now_bind, reaches_bind]
  refine (reaches_complete hs _ _).mono fun r m₂ hr => reaches_pure.2 ?_
  rw [KeepsTime, hr.1, hr.2]
  refine .single hn ⟨isOf_record .., fun h => ?_, fun h => ?_⟩ rfl _
  · rcases h with h | h <;> cases h
  · cases hkind.symm.trans h

/-- The records of a step account for the time that it takes. -/
theorem reaches_step (hs : s.TellsAtOnce) (hn : n ∈ g.nodes) (result : ScenarioResult) :
    (p.step n result).Reaches s m (KeepsTime g result m.now) := by
  rw [step]
  split
  · rw [reaches_pure, KeepsTime, Nat.sub_self]
    exact .refl g _
  · rw [reaches_now_bind]
    refine RunTask.reaches_emit_bind hs fun m₁ hnow => ?_
    rw [← hnow]
    dsimp only
    split
    · rw [reaches_bind]
      refine (reaches_complete hs _ _).mono fun r m₂ hr => reaches_pure.2 ?_
      rw [KeepsTime, hr.1, hr.2, Nat.sub_self]
      refine .single hn ⟨isOf_record .., fun _ => rfl, fun _ h => ?_⟩ rfl _
      rcases h with h | h <;> cases h
    · split
      · next hkind => exact reaches_decide hs hn hkind result
      · exact reaches_act hs hn result

/-- The records of a walk account for the time that it takes. -/
theorem reaches_walk (hs : s.TellsAtOnce) {nav : Navigator} (hn : n ∈ nav.graph.nodes)
    (result : ScenarioResult) : (p.walk nav n result).Reaches s m fun r m' =>
      Accounted nav.graph result.stepResults r.stepResults (m'.now - m.now) := by
  induction nav, n, result using SlotPlan.walk.induct generalizing m with
  | case1 nav n result ih =>
    rw [walk]
    refine reaches_taskBind.2 (reaches_isStopped.2 ?_)
    split
    · rw [reaches_done, Nat.sub_self]
      exact .refl _ _
    · rw [reaches_taskBind]
      refine (reaches_step hs hn result).later.mono fun x m₁ hx => ?_
      obtain ⟨hlater, hkeeps⟩ := hx
      rcases x with ⟨result', answer | error⟩
      · dsimp only
        split
        · exact reaches_done.2 hkeeps
        · next nav' next hnext =>
          obtain ⟨rfl, -, hmem, -⟩ := Navigator.advance?_eq_some hnext
          refine (ih result' answer _ next hnext hmem).later.mono fun r m₂ hr => ?_
          obtain ⟨hlater', hrest⟩ := hr
          have hsum : m₂.now - m.now = (m₁.now - m.now) + (m₂.now - m₁.now) := by omega
          exact hsum ▸ hkeeps.trans hrest
      · exact reaches_done.2 hkeeps

/-- A slot accounts for the time that it takes, and tells it. -/
theorem reaches_run (hs : s.TellsAtOnce) (g : Graph) (iteration : UInt32) :
    (p.run g iteration).Reaches s m fun r m' =>
      r.durationMs = millis (m'.now - m.now) ∧
        Accounted g [] r.stepResults (m'.now - m.now) := by
  rw [run, reaches_now_bind]
  dsimp only
  split
  · rw [reaches_bind, reaches_pure, reaches_now_bind, reaches_pure, Nat.sub_self]
    exact ⟨rfl, .refl g []⟩
  · next nav n hstart =>
    obtain ⟨rfl, hn⟩ := Navigator.start?_eq_some hstart
    have hmem : n ∈ g.nodes := List.mem_of_find?_eq_some hn
    rw [reaches_bind]
    refine (reaches_walk hs hmem _).mono fun r m' hr => ?_
    rw [reaches_now_bind, reaches_pure]
    exact ⟨rfl, hr⟩

/-- The time of a slot is the sum of the times of its records. A record that a step waits or is
skipped takes none of it, and an action tells of no more time than its record has. -/
theorem run_accounts (hs : s.TellsAtOnce) (g : Graph) (iteration : UInt32) {r : ScenarioResult}
    (hr : ((p.run g iteration).runAlone s m).1 = some r) :
    let elapsed := ((p.run g iteration).runAlone s m).2.now - m.now
    let sum := (r.stepResults.map fun step => step.durationMs.toNat).sum
    r.durationMs = millis elapsed ∧ r.durationMs = millis sum ∧
      (elapsed < UInt64.size → r.durationMs.toNat = sum) ∧
      ∃ entries : List (Node × StepResult), entries.map Prod.snd = r.stepResults ∧
        ∀ e ∈ entries, e.1 ∈ g.nodes ∧ e.1.Times e.2 := by
  intro elapsed sum
  obtain ⟨hduration, entries, times, hrecords, hentries, htimes, htotal⟩ :=
    reaches_run hs g iteration r hr
  have hsum : sum = (times.map fun ms => (millis ms).toNat).sum := by
    have hwords := congrArg (List.map UInt64.toNat) htimes
    rw [List.map_map, List.map_map] at hwords
    simp only [sum, hrecords, List.nil_append, List.map_map]
    exact congrArg List.sum hwords
  have hmillis : millis sum = millis elapsed := by rw [hsum, millis_sum, htotal]
  refine ⟨hduration, hduration.trans hmillis.symm, fun hlt => ?_, entries, hrecords.symm, hentries⟩
  have hle : sum ≤ elapsed := by
    rw [hsum]
    exact Nat.le_trans (sum_millis_le times) (Nat.le_of_eq htotal)
  have hwords := congrArg UInt64.toNat hmillis
  rw [toNat_millis, toNat_millis] at hwords
  rw [hduration, toNat_millis]
  omega

end SlotPlan

namespace Sample

/-- A device that shows a text at its second call and refuses every tap, and a sink for its
pictures; all of them take their time. -/
def sluggish : Service RunCall.Reply Nat where
  accept _ calls
    | .emit _ => ⟨calls, 0, []⟩
    | .save _ _ => ⟨calls, 700, []⟩
    | _ => ⟨calls + 1, 30, []⟩
  answer _ calls
    | .device (.locate _) => (calls, some (.ok (if calls < 2 then .absent else .present none)))
    | .device (.perform _) => (calls, some (.error (.transient "busy")))
    | .device .screenshot => (calls, some (.ok []))
    | .save _ artifact => (calls, some (.ok ⟨artifact.fileName, artifact.kind, "d", "r"⟩))
    | .emit _ => (calls, some ())
    | _ => (calls, none)

/-- A scenario with a disabled tap, a wait for a text, and a tap. -/
def strolling : Graph where
  id := "g"
  name := ""
  nodes :=
    [⟨"s", .start, none, .empty⟩,
      ⟨"off", .action, none, .ofList [("actionType", .text "tap"), ("disabled", .bool true)]⟩,
      ⟨"w", .action, none, .ofList [("actionType", .text "waitUntilTextExists"),
        ("text", .text "x")]⟩,
      ⟨"t", .action, none, .ofList [("actionType", .text "tap"), ("x", .int 1), ("y", .int 2)]⟩]
  connections := [⟨"s", "off", none⟩, ⟨"off", "w", none⟩, ⟨"w", "t", none⟩]

end Sample

/-- The sample spends its time on two steps, of which the last one is photographed. -/
theorem SlotPlan.run_accounts_sample :
    Sample.sluggish.TellsAtOnce ∧ ∃ r,
      ((Sample.watchingPlan.run Sample.strolling 1).runAlone Sample.sluggish
        (.initial none 0)).1 = some r ∧
      r.stepResults.map (fun step => (step.durationMs, step.performance.map Performance.totalMs)) =
        [(0, none), (0, none), (530, some 530), (1820, some 1090)] ∧
      r.durationMs = millis (r.stepResults.map fun step => step.durationMs.toNat).sum ∧
      ∃ entries : List (Node × StepResult), entries.map Prod.snd = r.stepResults ∧
        ∀ e ∈ entries, e.1 ∈ Sample.strolling.nodes ∧ e.1.Times e.2 := by
  have hs : Sample.sluggish.TellsAtOnce := fun _ _ _ => rfl
  have hends : ((Sample.watchingPlan.run Sample.strolling 1).runAlone Sample.sluggish
      (.initial none 0)).1.map (fun r => r.stepResults.map fun step =>
        (step.durationMs, step.performance.map Performance.totalMs)) =
      some [(0, none), (0, none), (530, some 530), (1820, some 1090)] := by decide +kernel
  obtain ⟨r, hr, htimes⟩ := Option.map_eq_some_iff.1 hends
  obtain ⟨-, hsum, -, hentries⟩ := run_accounts hs Sample.strolling 1 hr
  exact ⟨hs, r, hr, htimes, hsum, hentries⟩

end DeviceSuite
