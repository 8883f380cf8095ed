import DeviceSuite.Proofs.Run.Accounting
import DeviceSuite.Proofs.Run.Steps
import Mathlib.Computability.RegularExpressions
import Mathlib.Order.CompletePartialOrder

/-!
# The grammar of a tour

The topics of the events that a tour tells make a word of a regular grammar: the slots that are run
stand between the beginning and the end of the device, and in each of them the steps between the
beginning and the end of the scenario. A task that crashes has told the beginning of a word; a tour
that crashes never all of it, and one that cannot describe its device tells nothing.
-/

namespace DeviceSuite

namespace Grammar

open RegularExpression

/-- The events of a step: it begins, it may say that it waits, and it is complete. -/
def step : RegularExpression String :=
  char "suite:step:start" * ((1 + char "suite:step:waiting") * char "suite:step:complete")

/-- The events of a slot that is run. -/
def slot : RegularExpression String :=
  char "suite:scenario:start" * char "suite:progress" *
    (star step * char "suite:scenario:complete")

/-- The events of a tour. -/
def tour : RegularExpression String :=
  char "suite:device:start" * star slot * char "suite:device:complete"

/-- The topics of the events that a task has told. -/
def topicsOf (told : List (Answer RunCall.Reply)) : List String :=
  (eventsOf told).map Event.topic

/-- The topics of two transcripts one after the other are those of each. -/
theorem topicsOf_append (told more : List (Answer RunCall.Reply)) :
    topicsOf (told ++ more) = topicsOf told ++ topicsOf more := by
  rw [topicsOf, eventsOf_append, List.map_append, topicsOf, topicsOf]

/-- A grammar with words. -/
def Speakable (e : RegularExpression String) : Prop := ∃ word, word ∈ e.matches'

variable {e e' : RegularExpression String}

/-- A topic by itself is a word. -/
theorem speakable_char (topic : String) : Speakable (char topic) := ⟨[topic], rfl⟩

/-- A repetition has a word, which is the empty one. -/
theorem speakable_star (e : RegularExpression String) : Speakable (star e) :=
  ⟨[], Language.nil_mem_kstar _⟩

/-- A grammar after another one has words if both have. -/
theorem Speakable.mul (h : Speakable e) (h' : Speakable e') : Speakable (e * e') := by
  obtain ⟨word, hword⟩ := h
  obtain ⟨word', hword'⟩ := h'
  exact ⟨word ++ word', Language.append_mem_mul hword hword'⟩

/-- A choice has words if its second part has. -/
theorem Speakable.add_left (h : Speakable e') : Speakable (e + e') :=
  h.imp fun _ hword => Or.inr hword

/-- A choice allows what its first part does. -/
theorem left_le (e e' : RegularExpression String) : e.matches' ≤ (e + e').matches' :=
  fun _ hword => Or.inl hword

/-- A choice allows what its second part does. -/
theorem right_le (e e' : RegularExpression String) : e'.matches' ≤ (e + e').matches' :=
  fun _ hword => Or.inr hword

end Grammar

open Grammar

/-- The events of a task make a word of a grammar; when it crashes, the beginning of one. -/
def Task.Speaks {α : Type} (e : RegularExpression String) (t : RunTask α) : Prop :=
  t.Ends fun told r => match r with
    | some _ => topicsOf told ∈ e.matches'
    | none => ∃ rest, topicsOf told ++ rest ∈ e.matches'

namespace Task

variable {α β : Type} {e e' : RegularExpression String} {t : RunTask α} {f : α → RunTask β}

/-- A task that speaks by a grammar speaks by any that allows more. -/
theorem Speaks.mono (h : t.Speaks e) (hle : e.matches' ≤ e'.matches') : t.Speaks e' := by
  apply Ends.mono h
  intro told r hr
  cases r with
  | none => exact hr.imp fun rest hrest => hle hrest
  | some a => exact hle hr

/-- A task that ends at once tells nothing. -/
theorem speaks_pure (a : α) : (pure a : RunTask α).Speaks 1 := ends_pure.2 Language.nil_mem_one

/-- Tasks one after the other speak one grammar after the other; the later one needs a word to end
with when the earlier task crashes. -/
theorem Speaks.bind (h : t.Speaks e) (hf : ∀ a, (f a).Speaks e') (he' : Speakable e') :
    (t >>= f).Speaks (e * e') := by
  apply ends_bind.2
  apply Ends.mono h
  intro told r hr
  cases r with
  | none =>
    obtain ⟨rest, hrest⟩ := hr
    obtain ⟨word, hword⟩ := he'
    refine ⟨rest ++ word, ?_⟩
    rw [← List.append_assoc]
    exact Language.append_mem_mul hrest hword
  | some a =>
    apply Ends.mono (hf a)
    intro more r' hr'
    cases r' with
    | none =>
      obtain ⟨rest, hrest⟩ := hr'
      refine ⟨rest, ?_⟩
      rw [topicsOf_append, List.append_assoc]
      exact Language.append_mem_mul hr hrest
    | some b =>
      dsimp only
      rw [topicsOf_append]
      exact Language.append_mem_mul hr hr'

/-- A task goes on after one that tells nothing. -/
theorem Speaks.silent_bind (h : t.Speaks 1) (hf : ∀ a, (f a).Speaks e) (he : Speakable e) :
    (t >>= f).Speaks e :=
  (h.bind hf he).mono (one_mul e.matches').le

/-- A task may be followed by one that tells nothing. -/
theorem Speaks.bind_silent (h : t.Speaks e) (hf : ∀ a, (f a).Speaks 1) : (t >>= f).Speaks e := by
  have hword : Speakable 1 := ⟨[], Language.nil_mem_one⟩
  exact (h.bind hf hword).mono (mul_one e.matches').le

/-- To return something else says no more. -/
theorem Speaks.bind_pure (h : t.Speaks e) (f : α → β) : (t >>= fun a => pure (f a)).Speaks e :=
  h.bind_silent fun a => speaks_pure (f a)

/-- To read the clock says nothing. -/
theorem Speaks.now_bind {f : Nat → RunTask β} (h : ∀ ms, (f ms).Speaks e) :
    (now >>= f).Speaks e := h

/-- To read the stop flag says nothing. -/
theorem Speaks.isStopped_bind {f : Bool → RunTask β} (h : ∀ b, (f b).Speaks e) :
    (isStopped >>= f).Speaks e := h

/-- A task that tells no events. -/
theorem Only.speaks {H : RunCall → Prop} {P : α → Prop} (h : t.Only H P)
    (hH : ∀ c, H c → c.event? = none) : t.Speaks 1 := by
  apply (h.silent hH).mono
  intro told r hr
  have htopics : topicsOf told = [] := by rw [topicsOf, hr.1, List.map_nil]
  cases r with
  | none => exact ⟨[], by simp [htopics]⟩
  | some a => simp [htopics]

/-- A call that tells no event. -/
theorem speaks_ask {c : RunCall} (hc : c.event? = none) : (ask c : RunTask c.Reply).Speaks 1 :=
  (RunTask.only_call (H := fun c => c.event? = none) hc).speaks fun _ h => h

/-- What is done at the end tells nothing. -/
theorem Speaks.ensuring {last : RunTask Unit} (h : t.Speaks e) (hlast : last.Speaks 1) :
    (t.ensuring last).Speaks e := by
  apply ends_ensuring.2
  apply Ends.mono h
  intro told r hr
  have hrest : ∀ more : List (Answer RunCall.Reply), (∃ rest, topicsOf more ++ rest = []) →
      topicsOf (told ++ more) = topicsOf told := by
    rintro more ⟨rest, hnil⟩
    rw [topicsOf_append, (List.append_eq_nil_iff.1 hnil).1, List.append_nil]
  apply Ends.mono hlast
  intro more ended hended
  cases ended with
  | none =>
    have htold := hrest more hended
    cases r with
    | none => exact hr.imp fun _ h => htold.symm ▸ h
    | some a => exact ⟨[], by rwa [htold, List.append_nil]⟩
  | some _ =>
    have htold := hrest more ⟨[], by simpa using hended⟩
    cases r with
    | none => exact hr.imp fun _ h => htold.symm ▸ h
    | some a => exact htold.symm ▸ hr

end Task

namespace RunTask

variable {α β : Type} {e : RegularExpression String} {f : α → RunTask β}

/-- An event is a word of one letter. -/
theorem speaks_emit (event : Event) : (emit event).Speaks (.char event.topic) := by
  apply Task.ends_ask.2
  intro r
  cases r with
  | none => exact ⟨[event.topic], rfl⟩
  | some _ => exact rfl

/-- To change the state of the run says nothing. -/
theorem speaks_update (f : RunState → RunState) : (update f).Speaks 1 := Task.speaks_ask rfl

end RunTask

namespace SlotPlan

open RegularExpression

variable (p : SlotPlan) (n : Node) (options : StepOptions) (started : Nat) (result : ScenarioResult)

/-- To tell a record says that the step is complete. -/
theorem speaks_complete (step : StepResult) :
    (p.complete result step).Speaks (char "suite:step:complete") :=
  (RunTask.speaks_emit (.stepComplete ..)).bind_pure _

/-- An action that waits says so first. -/
theorem speaks_forewarn :
    (p.forewarn n started result).Speaks (1 + char "suite:step:waiting") := by
  rw [forewarn]
  split
  · exact ((RunTask.speaks_emit (.stepWaiting ..)).bind_pure _).mono (right_le ..)
  · exact (Task.speaks_pure result).mono (left_le ..)

/-- Whatever an action comes to, its step is said to be complete. -/
theorem speaks_conclude (outcome : Outcome) (picture : Option String) (ended : Nat) :
    (p.conclude n started result outcome picture ended).Speaks (char "suite:step:complete") := by
  simp only [conclude]
  split
  · exact (p.speaks_complete _ _).bind_pure _
  · exact (p.speaks_complete _ _).bind_pure _

/-- An action says that it waits if it does, and then that its step is complete. -/
theorem speaks_act : (p.act n options started result).Speaks
    ((1 + char "suite:step:waiting") * char "suite:step:complete") := by
  rw [act_eq]
  refine (p.speaks_forewarn n started result).bind (fun result => ?_) (speakable_char _)
  refine ((p.only_conduct n options).speaks fun _ h => h.event?).silent_bind (fun x => ?_)
    (speakable_char _)
  exact Task.Speaks.now_bind fun ended => p.speaks_conclude n started result x.1 x.2 ended

/-- A step that does not wait tells only that it is complete. -/
theorem complete_le : (char "suite:step:complete").matches' ≤
    ((1 + char "suite:step:waiting") * char "suite:step:complete").matches' := by
  intro word hword
  have hnone : ([] : List String) ∈ (1 + char "suite:step:waiting").matches' :=
    .inl Language.nil_mem_one
  exact Language.append_mem_mul hnone hword

/-- A condition says that its step is complete. -/
theorem speaks_decide : (p.decide n options started result).Speaks (char "suite:step:complete") := by
  refine ((RunTask.only_onDevice _).speaks fun _ h => h.event?).silent_bind (fun answer => ?_)
    (speakable_char _)
  exact Task.Speaks.now_bind fun ended => (p.speaks_complete result _).bind_pure _

/-- A node that is no end and no start speaks as one step, and any other says nothing. -/
theorem speaks_step : (p.step n result).Speaks (1 + Grammar.step) := by
  have hword : Speakable ((1 + char "suite:step:waiting") * char "suite:step:complete") :=
    (speakable_char _).add_left.mul (speakable_char _)
  rw [step]
  split
  · exact (Task.speaks_pure _).mono (left_le ..)
  · apply Task.Speaks.now_bind
    intro started
    refine Task.Speaks.mono ?_ (right_le ..)
    refine (RunTask.speaks_emit (.stepStart ..)).bind (fun _ => ?_) hword
    dsimp only
    split
    · exact ((p.speaks_complete result _).bind_pure _).mono complete_le
    · split
      · exact (p.speaks_decide n _ started result).mono complete_le
      · exact p.speaks_act n _ started result

/-- A walk is a step and the rest of the walk. -/
theorem step_star_le :
    ((1 + Grammar.step) * star Grammar.step).matches' ≤ (star Grammar.step).matches' := by
  have h : (1 + Grammar.step.matches') * KStar.kstar Grammar.step.matches' ≤
      KStar.kstar Grammar.step.matches' := by
    rw [add_mul, one_mul]
    exact add_le le_rfl mul_kstar_le_kstar
  exact h

/-- A walk speaks as any number of steps. -/
theorem speaks_walk (nav : Navigator) : (p.walk nav n result).Speaks (star Grammar.step) := by
  have hpure : ∀ r, (pure r : RunTask ScenarioResult).Speaks (star Grammar.step) := fun r =>
    (Task.speaks_pure r).mono one_le_kstar
  induction nav, n, result using SlotPlan.walk.induct with
  | case1 nav n result ih =>
    rw [walk]
    apply Task.Speaks.isStopped_bind
    intro stopped
    split
    · exact hpure _
    · refine ((p.speaks_step n result).bind ?_ (speakable_star _)).mono step_star_le
      rintro ⟨result', answer | error⟩
      · dsimp only
        split
        · exact hpure _
        · next nav' next hnext => exact ih _ _ _ _ hnext
      · exact hpure _

/-- A slot speaks as any number of steps. -/
theorem speaks_run (g : Graph) (iteration : UInt32) :
    (p.run g iteration).Speaks (star Grammar.step) := by
  rw [run]
  apply Task.Speaks.now_bind
  intro began
  have hended : ∀ r : ScenarioResult, (do
      let ended ← Task.now
      return { r with completedAt := .ofMillis ended, durationMs := millis (ended - began) } :
      RunTask ScenarioResult).Speaks 1 := fun r =>
    Task.Speaks.now_bind fun ended => Task.speaks_pure _
  dsimp only
  split
  · exact (hended _).mono one_le_kstar
  · next nav n _ =>
    exact (p.speaks_walk n _ nav).bind_silent hended

end SlotPlan

namespace Tour

open RegularExpression

variable (t : Tour) (g : Graph) (k : Nat) (d : DeviceResult)

/-- A recording adds nothing to what a slot says. -/
theorem speaks_film : (t.film g k).Speaks (star Grammar.step) := by
  have hstop : ∀ (recording : Bool) (r : ScenarioResult), (if recording then do
        let outcome ← Task.ask (RunCall.stopVideo (t.plan g k).context)
        return { r with videoPath := if outcome.success then outcome.localPath else none }
      else return r : RunTask ScenarioResult).Speaks 1 := by
    intro recording r
    cases recording with
    | false => exact Task.speaks_pure r
    | true => exact (Task.speaks_ask (c := .stopVideo _) rfl).bind_pure _
  have hrun : ∀ recording : Bool, ((t.plan g k).run g (t.iteration k) >>= fun r =>
      (if recording then do
        let outcome ← Task.ask (RunCall.stopVideo (t.plan g k).context)
        return { r with videoPath := if outcome.success then outcome.localPath else none }
      else return r : RunTask ScenarioResult)).Speaks (star Grammar.step) := fun recording =>
    ((t.plan g k).speaks_run g (t.iteration k)).bind_silent (hstop recording)
  simp only [film]
  split
  · exact (Task.speaks_ask (c := .startVideo _) rfl).silent_bind (fun _ => hrun _)
      (speakable_star _)
  · exact hrun false

/-- To settle a slot says nothing. -/
theorem speaks_settle (r : ScenarioResult) : (t.settle d r).Speaks 1 :=
  (RunTask.speaks_update _).bind_pure _

/-- To skip a slot says nothing. -/
theorem speaks_skip : (t.skip g k d).Speaks 1 :=
  Task.Speaks.now_bind fun _ => t.speaks_settle d _

/-- A slot is announced with its beginning and the progress of the run. -/
theorem speaks_announce :
    (t.announce g k).Speaks (char "suite:scenario:start" * char "suite:progress") := by
  refine Task.Speaks.now_bind fun ms => ?_
  refine (RunTask.speaks_emit (.scenarioStart ..)).bind (fun _ => ?_) (speakable_char _)
  exact (Task.speaks_ask (c := .progress) rfl).silent_bind
    (fun _ => RunTask.speaks_emit (.progress _)) (speakable_char _)

/-- The rest between slots says nothing. -/
theorem speaks_rest : (t.rest k).Speaks 1 := by
  rw [rest]
  split
  · exact fun full => Task.speaks_pure _
  · exact Task.speaks_pure ()

/-- A slot that is run speaks as one. -/
theorem speaks_visit : (t.visit g k d).Speaks Grammar.slot := by
  have hend : ∀ r : ScenarioResult, (do
      let d ← t.settle d r
      t.rest k
      return d : RunTask DeviceResult).Speaks 1 := fun r =>
    (t.speaks_settle d r).bind_silent fun d => (t.speaks_rest k).bind_pure fun _ => d
  have hcomplete : Speakable (star Grammar.step * char "suite:scenario:complete") :=
    (speakable_star _).mul (speakable_char _)
  have hword : Speakable Grammar.slot :=
    ((speakable_char _).mul (speakable_char _)).mul hcomplete
  refine (RunTask.speaks_update _).silent_bind (fun _ => ?_) hword
  refine (t.speaks_announce g k).bind (fun _ => ?_) hcomplete
  refine (t.speaks_film g k).bind (fun r => ?_) (speakable_char _)
  exact (RunTask.speaks_emit (.scenarioComplete ..)).bind_silent fun _ => hend r

/-- The slots of a tour speak as any number of slots. -/
theorem speaks_slots (left : Nat) : (t.slots left k d).Speaks (star Grammar.slot) := by
  induction left generalizing k d with
  | zero => exact (Task.speaks_pure d).mono one_le_kstar
  | succ left ih =>
    rw [slots]
    split
    · exact (Task.speaks_pure d).mono one_le_kstar
    · next g _ =>
      apply Task.Speaks.isStopped_bind
      intro stopped
      cases stopped with
      | true =>
        exact (t.speaks_skip g k d).silent_bind (fun d => ih (k + 1) d) (speakable_star _)
      | false =>
        exact ((t.speaks_visit g k d).bind (fun d => ih (k + 1) d) (speakable_star _)).mono
          mul_kstar_le_kstar

/-- To be registered adds nothing to what the slots of a tour say. -/
theorem speaks_work : (t.work d).Speaks (star Grammar.slot) :=
  (Task.speaks_ask (c := .register t.context) rfl).silent_bind
    (fun _ => (t.speaks_slots 0 d t.size).ensuring (Task.speaks_ask (c := .unregister t.context) rfl))
    (speakable_star _)

/-- What a tour does once its device has described itself, but for the last event. -/
def proceed (t : Tour) (environment : Environment) : RunTask DeviceResult := do
  let appInfo ← RunTask.onDevice (Task.ask DeviceCall.appInfo)
  t.updateDevice fun p => { p with status := .running }
  RunTask.emit (.deviceStart t.run.runId t.deviceId (← RunTask.instant))
  let result ← t.work { DeviceResult.new t.deviceId with
    environment := some environment
    appInfo := appInfo.toOption.join }
  t.updateDevice fun p =>
    { p with status := if 0 < result.stats.failed then .partiallyFailed else .completed }
  return result

/-- The last event of a tour carries its result. -/
theorem conduct_eq : t.conduct = (do
    match ← RunTask.onDevice (Task.ask DeviceCall.environment) with
    | .error e => return .error e
    | .ok environment =>
      let result ← t.proceed environment
      RunTask.emit (.deviceComplete t.run.runId result)
      return .ok result) := by
  rw [conduct]
  refine bind_congr fun environment => ?_
  cases environment with
  | error e => rfl
  | ok environment => simp only [proceed, bind_assoc, pure_bind]

/-- A tour whose device has described itself speaks from its first event on, but for the last. -/
theorem speaks_proceed (environment : Environment) :
    (t.proceed environment).Speaks (char "suite:device:start" * star Grammar.slot) := by
  refine ((RunTask.only_onDevice _).speaks fun _ h => h.event?).silent_bind (fun appInfo => ?_)
    ((speakable_char _).mul (speakable_star _))
  refine (RunTask.speaks_update _).silent_bind (fun _ => ?_)
    ((speakable_char _).mul (speakable_star _))
  refine Task.Speaks.now_bind fun ms => ?_
  refine (RunTask.speaks_emit (.deviceStart ..)).bind (fun _ => ?_) (speakable_star _)
  refine (t.speaks_work _).bind_silent fun d => ?_
  exact (RunTask.speaks_update _).bind_pure _

/-- The events of a tour with a result make a word of the grammar; those of one that crashes, the
beginning of one; one that cannot describe its device tells nothing. -/
theorem ends_conduct : t.conduct.Ends fun told r => match r with
    | some (.ok _) => topicsOf told ∈ Grammar.tour.matches'
    | some (.error _) => eventsOf told = []
    | none => ∃ rest, rest ≠ [] ∧ topicsOf told ++ rest ∈ Grammar.tour.matches' := by
  have hlast : ["suite:device:complete"] ∈ (char "suite:device:complete").matches' := rfl
  have hbroken : ∀ told : List (Answer RunCall.Reply),
      (∃ rest, topicsOf told ++ rest ∈ (char "suite:device:start" * star Grammar.slot).matches') →
      ∃ rest, rest ≠ [] ∧ topicsOf told ++ rest ∈ Grammar.tour.matches' := by
    rintro told ⟨rest, hrest⟩
    refine ⟨rest ++ ["suite:device:complete"], by simp, ?_⟩
    rw [← List.append_assoc]
    exact Language.append_mem_mul hrest hlast
  rw [conduct_eq]
  apply Task.ends_bind.2
  apply ((RunTask.only_onDevice _).silent fun _ h => h.event?).mono
  rintro asked r ⟨hasked, -⟩
  have hsilent : ∀ more : List (Answer RunCall.Reply),
      topicsOf (asked ++ more) = topicsOf more := fun more => by
    rw [topicsOf_append, topicsOf, hasked, List.map_nil, List.nil_append]
  rcases r with _ | (e | environment)
  · obtain ⟨word, hword⟩ := (speakable_char "suite:device:start").mul (speakable_star Grammar.slot)
    have htopics : topicsOf asked = [] := by rw [topicsOf, hasked, List.map_nil]
    exact hbroken asked ⟨word, htopics ▸ hword⟩
  · simpa using hasked
  · apply Task.ends_bind.2
    apply Task.Ends.mono (t.speaks_proceed environment)
    intro told r hr
    cases r with
    | none => exact hbroken _ (hr.imp fun rest h => hsilent told ▸ h)
    | some d =>
      apply Task.ends_bind.2
      apply Task.ends_ask.2
      intro reply
      cases reply with
      | none =>
        refine hbroken _ ⟨[], ?_⟩
        rw [hsilent, topicsOf_append, List.append_nil]
        exact (List.append_nil (topicsOf told)).symm ▸ hr
      | some _ =>
        change topicsOf (asked ++
          (told ++ [.reply (.emit (.deviceComplete t.run.runId d)) (some ())])) ∈ _
        rw [hsilent, topicsOf_append]
        exact Language.append_mem_mul hr hlast

end Tour

end DeviceSuite
