import DeviceSuite.Proofs.Run.Chronicle
import DeviceSuite.Proofs.Session.Numbers

/-!
# The log of the events

Telling an event takes no time, so no task ever stands in such a call. What is told between two
moments of a session is therefore what its log has gained: the events of the calls that have begun,
in their order.
-/

namespace DeviceSuite

open Calls

namespace World

variable {σ : Type} (service : Service DeviceCall.Reply σ) (w : World σ) (l : Role) (c : RunCall)

/-- To accept a call tells no event. -/
@[simp] theorem accept_events : (w.accept service l c).1.events = w.events := by
  obtain ⟨_, _, _, h⟩ := w.accept_eq service l c
  rw [h]

/-- To announce a call tells no event. -/
@[simp] theorem announce_events : (w.announce l c).events = w.events := by
  cases c <;> rfl

/-- A task that ends tells no event. -/
@[simp] theorem finish_events (ending : Option RoleResult) :
    (w.finish l ending).events = w.events := by
  cases l <;> rfl

/-- The end of a call writes the event down that the call tells. -/
theorem answer_events : (w.answer service l c).1.events =
    w.events ++ c.event?.toList.map fun e => (w.now, e) := by
  have hanswers := w.answers service l c
  generalize (w.answer service l c).1 = w' at hanswers
  cases hanswers with
  | emit => rfl
  | _ => exact (List.append_nil _).symm

/-- The log says what was told before, and what these calls tell. -/
def Logs (before : List Event) (s : World σ × Calls) : Prop :=
  s.1.events.map Prod.snd = before ++ tellings s.2

/-- The calls of a task are written down as they tell their events. -/
theorem keeps_log (before : List Event) : (host service).recorded.Keeps l (fun _ => True)
    (Logs before) (fun _ => Logs before) fun c s => Logs before s ∧ c.event? = none := by
  have htakes : ∀ {w : World σ} {calls : Calls} {c : RunCall}, Logs before (w, calls) →
      (host service).recorded.Takes l (Logs before)
        (fun c s => Logs before s ∧ c.event? = none) c (w, calls) := by
    intro w calls c hlog
    unfold Logs at hlog
    simp only [Host.Takes, Host.take, Host.recorded, host]
    by_cases hms : (w.accept service l c).2 = 0
    · simp only [hms, ↓reduceIte, Logs, answer_events, accept_events, List.map_append, List.map_map,
        hlog, tellings_append, tellings_cons, tellings_nil, List.append_nil, List.append_assoc]
      exact congrArg _ (congrArg _ (List.map_id _))
    · have hsilent : c.event? = none := by
        cases c <;> first | rfl | exact absurd rfl hms
      simp only [hms, ↓reduceIte, Logs, accept_events, hlog, tellings_append, tellings_cons, hsilent]
      simp
  refine ⟨?_, ?_, fun _ hlog _ => htakes hlog, ?_⟩
  · rintro ⟨w, calls⟩ c - hlog -
    simpa [Logs, Host.recorded, host] using hlog
  · rintro ⟨w, calls⟩ c - hlog -
    exact htakes (by simpa [Logs, host] using hlog)
  · rintro ⟨w, calls⟩ c - ⟨hlog, hsilent⟩
    simpa [Logs, Host.recorded, host, answer_events, hsilent] using hlog

end World

namespace Session

variable {σ : Type} {s s' : Session σ} {calls more : Calls}

/-- No task stands in a call that tells an event. -/
def Prompt (s : Session σ) : Prop :=
  ∀ e ∈ s.pool.strands, ∀ due c next, e.2 = .calling due c next → c.event? = none

/-- The log of a session gains what is told in a turn. -/
theorem Prompt.takeTurn (h : s.Prompt) {i : Nat} (able : s.pool.isAble s.host i = true) :
    (s.takeTurn i).Prompt ∧ (s.takeTurn i).world.events.map Prod.snd =
      s.world.events.map Prod.snd ++ tellings (s.callsOfTurn i) := by
  obtain ⟨l, strand, hi, -⟩ := takeTurn_spec able
  have hkeeps := World.keeps_log s.plan.service l (s.world.events.map Prod.snd)
  have hlog : World.Logs (s.world.events.map Prod.snd) (s.world, []) := (List.append_nil _).symm
  have hstands : strand.Stands (World.Logs (s.world.events.map Prod.snd))
      (fun _ => World.Logs (s.world.events.map Prod.snd))
      (fun c s' => World.Logs (s.world.events.map Prod.snd) s' ∧ c.event? = none)
      (s.world, []) := by
    cases strand with
    | calling due c next => exact ⟨hlog, h _ (List.mem_of_getElem? hi) due c next rfl⟩
    | ended result => trivial
    | _ => exact hlog
  obtain ⟨strand', hstrands, -, hleaves⟩ := takeTurn_records hi able hkeeps strand.makes_any hstands
  constructor
  · intro e he due c next hcalling
    rw [hstrands] at he
    rcases List.mem_or_eq_of_mem_set he with he | rfl
    · exact h e he due c next hcalling
    · subst hcalling
      exact hleaves.1.2
  · exact hleaves.shared (fun _ hs => hs) (fun _ _ hs => hs) (fun _ _ hs => hs.1)
      fun s' r hs => (congrArg _ (s'.1.finish_events l r)).trans hs

/-- The events of a session are those that its calls tell, whatever happens next. -/
theorem Prompt.next (h : s.Prompt) (hnext : Next s more s') :
    s'.Prompt ∧ s'.world.events.map Prod.snd = s.world.events.map Prod.snd ++ tellings more := by
  cases hnext with
  | turn able => exact h.takeTurn able
  | launch suiteId suiteName accepted =>
    refine ⟨?_, ?_⟩
    · intro e he due c next hcalling
      rw [strands_launch] at he
      rcases List.mem_append.1 he with he | he
      · exact h e he due c next hcalling
      · obtain rfl | ⟨place, id, -, rfl⟩ := mem_newStrands _ he <;> cases hcalling
    · rw [world_launch]
      exact (List.append_nil _).symm
  | _ => exact ⟨h, (List.append_nil _).symm⟩

/-- Events have been told at once since the session was opened. -/
theorem Opened.prompt (h : Opened s) : s.Prompt := by
  induction h with
  | setUp h =>
    intro e he
    rw [(setUp_blank h).2.1] at he
    exact absurd he List.not_mem_nil
  | next _ hnext ih => exact (ih.next hnext).1

/-- The log of a session gains what is told in a history. -/
theorem Prompt.history (h : s.Prompt) (hhistory : History s calls s') :
    s'.Prompt ∧ s'.world.events.map Prod.snd = s.world.events.map Prod.snd ++ tellings calls := by
  induction hhistory with
  | refl => exact ⟨h, (List.append_nil _).symm⟩
  | step _ hnext ih =>
    obtain ⟨hprompt, hlog⟩ := ih
    obtain ⟨hprompt', hlog'⟩ := hprompt.next hnext
    exact ⟨hprompt', by rw [hlog', hlog, tellings_append, List.append_assoc]⟩

end Session

end DeviceSuite
