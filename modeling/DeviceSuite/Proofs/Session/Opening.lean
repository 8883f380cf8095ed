import DeviceSuite.Proofs.Session.Ledger
import DeviceSuite.Proofs.Session.Watch

/-!
# How a run begins

Nothing of a run happens before its lead takes the first turn: the tours wait for the run to begin,
and only the lead lets it. In that turn the lead tells the first event, so nothing is told of a run
before it.
-/

namespace DeviceSuite

open Calls

namespace World

variable {σ : Type} {w : World σ} {n : Nat} {l : Role}

/-- To answer a call changes no crew. -/
@[simp] theorem answer_crew? (service : Service DeviceCall.Reply σ) (w : World σ) (l : Role)
    (c : RunCall) : (w.answer service l c).1.crew? n = w.crew? n := by
  rw [crew?, (w.answers service l c).crews_eq, crew?]

/-- To accept a call changes no crew. -/
@[simp] theorem accept_crew? (service : Service DeviceCall.Reply σ) (w : World σ) (l : Role)
    (c : RunCall) : (w.accept service l c).1.crew? n = w.crew? n := by
  obtain ⟨_, _, _, h⟩ := w.accept_eq service l c
  rw [h]
  rfl

/-- A change of one crew is none of another. -/
theorem updateCrew_crew?_of_ne {m : Nat} (hm : m ≠ n) (w : World σ) (f : Crew → Crew) :
    (w.updateCrew m f).crew? n = w.crew? n := by
  simp [updateCrew, crew?, hm]

/-- A change of a crew is one of that crew. -/
theorem updateCrew_crew?_self {crew : Crew} (h : w.crew? n = some crew) (f : Crew → Crew) :
    (w.updateCrew n f).crew? n = some (f crew) := by
  have hcrew : w.crews[n]? = some crew := h
  simp [updateCrew, crew?, hcrew]

/-- A task does nothing to the crews of other runs. -/
theorem announce_crew?_of_ne (hl : l.run ≠ n) (w : World σ) (c : RunCall) :
    (w.announce l c).crew? n = w.crew? n := by
  cases c with
  | tours => exact updateCrew_crew?_of_ne hl w _
  | _ => rfl

/-- A task that ends changes the crew of its own run alone. -/
theorem finish_crew?_of_ne (hl : l.run ≠ n) (w : World σ) (ending : Option RoleResult) :
    (w.finish l ending).crew? n = w.crew? n := by
  cases l <;> exact updateCrew_crew?_of_ne hl w _

end World

namespace Session

variable {σ : Type} {s s' : Session σ} {calls more : Calls} {n i : Nat} {l : Role}
  {run : RunState} {scenarios : List Graph} {request : Request}
  {strand : Strand RunCall.Reply RoleResult}

/-- The calls that begin in a turn are those of the task whose turn it is. -/
theorem label_of_mem_callsOfTurn (hi : s.pool.strands[i]? = some (l, strand))
    (able : s.pool.isAble s.host i = true) : ∀ e ∈ s.callsOfTurn i, e.label = l := by
  let own (x : World σ × Calls) : Prop := ∀ e ∈ x.2, e.label = l
  have hkeeps : s.host.recorded.Keeps l (fun _ => True) own (fun _ => own) fun _ => own :=
    Host.keeps_of_parts (fun _ _ h => h)
      (fun x c h e he => (List.mem_append.1 he).elim (h e) fun he => by rw [List.mem_singleton.1 he])
      (fun _ _ h => h)
  have hstands : strand.Stands own (fun _ => own) (fun _ => own) (s.world, []) := by
    cases strand <;> simp [Strand.Stands, own]
  obtain ⟨_, -, -, hleaves⟩ := takeTurn_records hi able hkeeps strand.makes_any hstands
  exact hleaves.shared (fun _ h => h) (fun _ _ h => h) (fun _ _ h => h) fun _ _ h => h

/-- The tasks of other runs leave the crew of a run alone. -/
theorem crew?_takeTurn_of_ne (hi : s.pool.strands[i]? = some (l, strand))
    (able : s.pool.isAble s.host i = true) (hl : l.run ≠ n) :
    (s.takeTurn i).world.crew? n = s.world.crew? n := by
  obtain ⟨l', strand', hi', hable, hworld, -⟩ := takeTurn_spec able
  obtain ⟨rfl, rfl⟩ := Prod.mk.inj (Option.some.inj (hi'.symm.trans hi))
  rw [hworld]
  exact Host.resume_keeps (h := s.host) (P := fun w => w.crew? n = s.world.crew? n)
    (fun w c h => (World.announce_crew?_of_ne hl w c).trans h)
    (fun w c h => (w.accept_crew? s.plan.service l' c).trans h)
    (fun w c h => (w.answer_crew? s.plan.service l' c).trans h)
    (fun w r h => (World.finish_crew?_of_ne hl w r).trans h) hable rfl

/-- What a task of a run that has not begun stands at: the lead at its beginning, and a tour before
the first call. -/
def AtStart (run : RunState) (n : Nat) (e : Role × Strand RunCall.Reply RoleResult) : Prop :=
  e = (.lead n, .ready do return .lead (← RunTask.lead run)) ∨
    ∃ next, e.2 = .waiting RunCall.begun next

/-- A run that has not begun: no task of it has made a call. -/
structure Dormant (s : Session σ) (calls : Calls) (n : Nat) (run : RunState) : Prop where
  crew : ∃ size, s.world.crew? n = some (.new size)
  calls : calls.filter (fun e => e.label.run = n) = []
  strands : ∀ e ∈ s.pool.strands, e.1.run = n → AtStart run n e

/-- A run whose first event is the one that begins it. -/
def Awake (calls : Calls) (n : Nat) (run : RunState) : Prop :=
  ∃ now later, tellings (calls.filter fun e => e.label.run = n) = run.opening now :: later

/-- A run that has been awake still is after more calls. -/
theorem Awake.append (h : Awake calls n run) (more : Calls) : Awake (calls ++ more) n run := by
  obtain ⟨now, later, htold⟩ := h
  refine ⟨now, later ++ tellings (more.filter fun e => e.label.run = n), ?_⟩
  rw [List.filter_append, tellings_append, htold, List.cons_append]

/-- The first turn of a lead begins with the first event of its run. -/
theorem callsOf_lead (service : Service DeviceCall.Reply σ) (w : World σ) (n : Nat)
    (run : RunState) :
    ∃ now later, tellings ((World.host service).callsOf (.lead n)
      (.ready do return .lead (← RunTask.lead run)) w) = run.opening now :: later := by
  let h := World.host service
  let began : RunCall := .update fun s => s.withStatus .running
  let w' := (w.answer service (.lead n) began).1
  let opening : RunCall := .emit (run.opening (.ofMillis w'.now))
  let w'' := (w'.answer service (.lead n) opening).1
  obtain ⟨rest, hrest⟩ : ∃ rest : RunTask RoleResult,
      h.callsOf (.lead n) (.ready do return .lead (← RunTask.lead run)) w =
        (h.recorded.carry (.lead n) rest (w'', [⟨.lead n, began, h.isStopped w (.lead n)⟩,
          ⟨.lead n, opening, h.isStopped w' (.lead n)⟩])).1.2 := ⟨_, rfl⟩
  rw [hrest, h.recorded_carry]
  exact ⟨_, _, rfl⟩

/-- A tour of a run that has not begun is not able to go on. -/
theorem Dormant.lead_of_isAble (h : s.Dormant calls n run)
    (hi : s.pool.strands[i]? = some (l, strand)) (able : s.host.isAble s.world l strand = true)
    (hl : l.run = n) :
    (l, strand) = (.lead n, .ready do return .lead (← RunTask.lead run)) := by
  rcases h.strands _ (List.mem_of_getElem? hi) hl with hlead | ⟨next, hwaiting⟩
  · exact hlead
  · obtain ⟨size, hcrew⟩ := h.crew
    obtain rfl : strand = .waiting .begun next := hwaiting
    subst hl
    simp [Host.isAble, host, World.host, World.admits, hcrew, Crew.new] at able

/-- The tasks of other runs do not let a run begin. -/
theorem Dormant.aside (h : s.Dormant calls n run) (hi : s.pool.strands[i]? = some (l, strand))
    (able : s.pool.isAble s.host i = true) (hl : l.run ≠ n) :
    (s.takeTurn i).Dormant (calls ++ s.callsOfTurn i) n run := by
  obtain ⟨l', strand', hi', -, -, hstrands, -⟩ := takeTurn_spec able
  obtain ⟨rfl, rfl⟩ := Prod.mk.inj (Option.some.inj (hi'.symm.trans hi))
  refine ⟨(crew?_takeTurn_of_ne hi able hl).symm ▸ h.crew, ?_, ?_⟩
  · rw [List.filter_append, h.calls, List.nil_append]
    exact List.filter_eq_nil_iff.2 fun e he => by
      simpa [label_of_mem_callsOfTurn hi able e he] using hl
  · intro e he hrun
    rw [hstrands] at he
    rcases List.mem_or_eq_of_mem_set he with he | rfl
    · exact h.strands e he hrun
    · exact absurd hrun hl

/-- A run that has not begun to do anything either still has not after a turn, or has awoken in it.
-/
theorem Dormant.takeTurn (h : s.Dormant calls n run) (able : s.pool.isAble s.host i = true) :
    (s.takeTurn i).Dormant (calls ++ s.callsOfTurn i) n run ∨
      Awake (calls ++ s.callsOfTurn i) n run := by
  obtain ⟨l, strand, hi, hable, -, -, hcalls⟩ := takeTurn_spec able
  by_cases hl : l.run = n
  · right
    obtain ⟨rfl, rfl⟩ := Prod.mk.inj (h.lead_of_isAble hi hable hl)
    obtain ⟨now, later, htold⟩ := callsOf_lead s.plan.service s.world n run
    have hall : (s.callsOfTurn i).filter (fun e => e.label.run = n) = s.callsOfTurn i :=
      List.filter_eq_self.2 fun e he => by
        rw [label_of_mem_callsOfTurn hi able e he]
        simp [Role.run]
    refine ⟨now, later, ?_⟩
    rw [List.filter_append, h.calls, List.nil_append, hall, hcalls]
    exact htold
  · exact .inl (h.aside hi able hl)

/-- A run that has not begun to do anything either still has not, whatever happens next, or has
awoken. -/
theorem Dormant.next (h : s.Dormant calls n run) (hn : s.Numbered) (hnext : Next s more s') :
    s'.Dormant (calls ++ more) n run ∨ Awake (calls ++ more) n run := by
  obtain ⟨size, hcrew⟩ := h.crew
  have hlt : n < s.world.crews.length := (List.getElem?_eq_some_iff.1 hcrew).1
  cases hnext with
  | turn able => exact h.takeTurn able
  | launch suiteId suiteName accepted =>
    rw [List.append_nil]
    refine .inl ⟨⟨size, (s.crew?_launch_of_lt _ _ _ _ hlt).trans hcrew⟩, h.calls, ?_⟩
    intro e he hrun
    exact h.strands e (mem_of_mem_launch _ _ _ _ (hn.crews ▸ hlt) he hrun) hrun
  | _ =>
    rw [List.append_nil]
    exact .inl ⟨⟨size, hcrew⟩, h.calls, h.strands⟩

/-- A run that is launched has not begun. -/
theorem dormant_launch (hn : s.Numbered) (suiteId suiteName : String) :
    (s.launch suiteId suiteName request scenarios).1.Dormant [] s.world.registry.runs.length
      (s.newRun suiteId suiteName request) := by
  refine ⟨⟨request.deviceIds.length, hn.crew?_launch _ _ _ _⟩, rfl, ?_⟩
  intro e he hrun
  obtain rfl | ⟨place, id, -, rfl⟩ := mem_newStrands _ (hn.mem_newStrands_of_launch he hrun)
  · exact .inl rfl
  · exact .inr ⟨_, rfl⟩

/-- The tasks of a run observe its accords, and nothing is told of it before its first event. -/
theorem Underway.opens (hu : Underway s calls n request scenarios) :
    ∃ runId suiteId suiteName startedAt,
      let run := RunState.new runId suiteId suiteName request startedAt
      s.Watched calls n scenarios run ∧ (s.Dormant calls n run ∨ Awake calls n run) := by
  apply hu.remains (P := fun run s calls =>
    s.Watched calls n scenarios run ∧ (s.Dormant calls n run ∨ Awake calls n run))
  · rintro s suiteId suiteName ho rfl
    exact ⟨ho.watched_launch suiteId suiteName, .inl (dormant_launch ho.numbered _ _)⟩
  · rintro run s s' calls more ⟨hwatched, hopening⟩ hnext
    refine ⟨hwatched.next hnext, ?_⟩
    rcases hopening with hdormant | hawake
    · exact hdormant.next hwatched.1 hnext
    · exact .inr (hawake.append more)

end Session

end DeviceSuite
