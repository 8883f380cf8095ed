import DeviceSuite.Proofs.Run.Telling
import DeviceSuite.Proofs.Session.Opening
import DeviceSuite.Proofs.Session.Seats
import DeviceSuite.Proofs.Session.Silence
import DeviceSuite.Proofs.Task.Standstill

/-!
# How a run ends

Whatever the devices do, a run comes to its end if it is given time. Strands go on only finitely
often, so a session comes to a standstill. At a standstill nobody waits for the desk; the tours of
a run that has begun have ended, so its lead does not wait for them; and a lead that waits for
nothing has ended with a result.
-/

namespace DeviceSuite

/-- The calls that a task may make, by its role. -/
def Role.Makes : Role → RunCall → Prop
  | lead _, c => c.OfLead
  | tour _ _ _, c => c.isLeads = false

/-- A crew has become another one on account of a task. -/
structure Crew.Gives (n : Nat) (l : Role) (c c' : Crew) : Prop where
  size : c'.size = c.size
  begun : c.begun = true → c'.begun = true
  reports : c.reports.map (·.1) ⊆ c'.reports.map (·.1)
  result : l ≠ .lead n → c'.result = c.result

/-- What the crew of a run has of a strand of the run: the lead has let the tours begin when it
waits for them, and each end has been written down. -/
structure Crew.Has (c : Crew) (e : Role × Strand RunCall.Reply RoleResult) : Prop where
  makes : e.2.Makes e.1.Makes fun _ => True
  begun : ∀ next, e.2 = .waiting RunCall.tours next → c.begun = true
  ended : ∀ ending, e.2 = .ended ending → match e.1 with
    | .lead _ => c.result = RoleResult.lead? ending
    | .tour _ place _ => place ∈ c.reports.map (·.1)

namespace Crew

variable {n : Nat} {l : Role} {c c' c'' : Crew} {e : Role × Strand RunCall.Reply RoleResult}

/-- A crew that has not changed has become what it is. -/
theorem Gives.refl (n : Nat) (l : Role) (c : Crew) : c.Gives n l c :=
  ⟨rfl, id, List.Subset.refl _, fun _ => rfl⟩

/-- What a crew has become on account of a task in two steps it has become on account of it. -/
theorem Gives.trans (h : c.Gives n l c') (h' : c'.Gives n l c'') : c.Gives n l c'' :=
  ⟨h'.size.trans h.size, h'.begun ∘ h.begun, List.Subset.trans h.reports h'.reports,
    fun hl => (h'.result hl).trans (h.result hl)⟩

/-- A crew that lets its tours begin has changed on account of any task. -/
theorem gives_start (n : Nat) (l : Role) (c : Crew) : c.Gives n l c.start :=
  ⟨rfl, fun _ => rfl, List.Subset.refl _, fun _ => rfl⟩

/-- The crew has as much of a strand as before when another task has gone on. -/
theorem Has.give (h : c.Has e) (hn : e.1.run = n) (hne : e.1 ≠ l) (hc : c.Gives n l c') :
    c'.Has e := by
  obtain ⟨role, strand⟩ := e
  refine ⟨h.makes, fun next hwaiting => hc.begun (h.begun next hwaiting), fun ending hended => ?_⟩
  cases role with
  | lead m =>
    obtain rfl : m = n := hn
    exact (hc.result hne.symm).trans (h.ended ending hended)
  | tour m place id => exact hc.reports (h.ended ending hended)

end Crew

namespace World

variable {σ : Type} {service : Service DeviceCall.Reply σ} {w : World σ} {n : Nat} {l : Role}
  {crew : Crew}

/-- The crew of a run has changed at most on account of one task. -/
def Crews (n : Nat) (l : Role) (crew : Crew) (w : World σ) : Prop :=
  ∃ crew', w.crew? n = some crew' ∧ crew.Gives n l crew'

/-- The crew of a run has changed at most on account of one task, which waits for a call. -/
def CrewsAt (n : Nat) (l : Role) (crew : Crew) (c : RunCall) (w : World σ) : Prop :=
  ∃ crew', w.crew? n = some crew' ∧ crew.Gives n l crew' ∧
    (l.run = n → c = .tours → crew'.begun = true)

/-- A call that is announced changes the crew of its own run at most, and lets its tours begin when
it waits for them. -/
theorem Crews.announce (h : w.Crews n l crew) (c : RunCall) :
    (w.announce l c).CrewsAt n l crew c := by
  obtain ⟨crew', hcrew, hgives⟩ := h
  by_cases hl : l.run = n
  · subst hl
    cases c with
    | tours =>
      exact ⟨crew'.start, updateCrew_crew?_self hcrew _, hgives.trans (crew'.gives_start _ _),
        fun _ _ => rfl⟩
    | _ => exact ⟨crew', hcrew, hgives, fun _ h => by cases h⟩
  · exact ⟨crew', (announce_crew?_of_ne hl w c).trans hcrew, hgives, fun h => absurd h hl⟩

/-- The calls of a task change crews on account of that task alone. -/
theorem keeps_crews (service : Service DeviceCall.Reply σ) (n : Nat) (l : Role) (crew : Crew)
    (H : RunCall → Prop) :
    (host service).Keeps l H (Crews n l crew) (CrewsAt n l crew) fun _ => Crews n l crew :=
  Host.keeps_of_phases (fun _ c _ h => h.announce c)
    (fun w c _ ⟨crew', hcrew, hgives, _⟩ _ =>
      ⟨crew', (w.accept_crew? service l c).trans hcrew, hgives⟩)
    (fun w c _ ⟨crew', hcrew, hgives⟩ => ⟨crew', (w.answer_crew? service l c).trans hcrew, hgives⟩)

/-- The end of a task is written down in the crew of its run. -/
theorem Crews.finish (h : w.Crews n l crew) (ending : Option RoleResult) :
    (w.finish l ending).Crews n l crew := by
  obtain ⟨crew', hcrew, hgives⟩ := h
  by_cases hl : l.run = n
  · cases l with
    | lead m =>
      obtain rfl : m = n := hl
      refine ⟨_, updateCrew_crew?_self hcrew _, hgives.trans ⟨rfl, id, List.Subset.refl _, ?_⟩⟩
      exact fun hne => absurd rfl hne
    | tour m place id =>
      obtain rfl : m = n := hl
      refine ⟨_, updateCrew_crew?_self hcrew _,
        hgives.trans ⟨rfl, fun h => h, ?_, fun _ => rfl⟩⟩
      simp [Crew.report]
  · exact ⟨crew', (finish_crew?_of_ne hl w ending).trans hcrew, hgives⟩

/-- What the crew has of a strand that has gone on. -/
theorem has_of_leaves {strand : Strand RunCall.Reply RoleResult} {crew' : Crew} (hl : l.run = n)
    (hmakes : strand.Makes l.Makes fun _ => True)
    (h : (host service).Leaves l (Crews n l crew) (CrewsAt n l crew) (fun _ => Crews n l crew)
      (w, strand)) (hcrew : w.crew? n = some crew') : crew'.Has (l, strand) := by
  refine ⟨hmakes, ?_, ?_⟩
  · rintro next rfl
    obtain ⟨crew'', hcrew'', -, hbegun⟩ := h.1
    obtain rfl : crew'' = crew' := Option.some.inj (hcrew''.symm.trans hcrew)
    exact hbegun hl rfl
  · rintro ending rfl
    obtain ⟨w', ⟨crew'', hcrew'', -⟩, rfl⟩ := h.2 ending rfl
    subst hl
    cases l with
    | lead m =>
      obtain rfl := Option.some.inj ((updateCrew_crew?_self hcrew'' _).symm.trans hcrew)
      rfl
    | tour m place id =>
      obtain rfl := Option.some.inj ((updateCrew_crew?_self hcrew'' _).symm.trans hcrew)
      simp [Crew.report]

end World

namespace Session

variable {σ : Type} {s s' : Session σ} {calls more : Calls} {n : Nat} {crew : Crew}
  {ids : List String} {request : Request} {scenarios : List Graph}

/-- The strands of a run are those of its lead and of its tours, and its crew has all of them. -/
structure Manned (s : Session σ) (n : Nat) (ids : List String) (crew : Crew) : Prop where
  found : s.world.crew? n = some crew
  size : crew.size = ids.length
  lead : .lead n ∈ s.pool.strands.map (·.1)
  tours : ∀ place id, ids[place]? = some id → .tour n place id ∈ s.pool.strands.map (·.1)
  has : ∀ e ∈ s.pool.strands, e.1.run = n → crew.Has e

/-- A run stays manned when a strand takes its turn. -/
theorem Manned.takeTurn (h : s.Manned n ids crew) (hn : s.Numbered) {i : Nat}
    (able : s.pool.isAble s.host i = true) : ∃ crew', (s.takeTurn i).Manned n ids crew' := by
  obtain ⟨l, strand, hi, -, -, hset, -⟩ := takeTurn_spec able
  have hmem := List.mem_of_getElem? hi
  have hlabels : (s.takeTurn i).pool.strands.map (·.1) = s.pool.strands.map (·.1) := by
    rw [hset]
    exact Company.map_set_label hi _
  have hcrews : s.world.Crews n l crew := ⟨crew, h.found, .refl n l crew⟩
  have hstands : strand.Stands (World.Crews n l crew) (World.CrewsAt n l crew)
      (fun _ => World.Crews n l crew) s.world := by
    cases strand with
    | waiting c next =>
      refine ⟨crew, h.found, .refl n l crew, fun hl hc => ?_⟩
      subst hc
      exact (h.has _ hmem hl).begun next rfl
    | ended ending => trivial
    | _ => exact hcrews
  obtain ⟨H, hmakes, hrun⟩ : ∃ H : RunCall → Prop, strand.Makes H (fun _ => True) ∧
      (l.run = n → H = l.Makes) := by
    by_cases hl : l.run = n
    · exact ⟨l.Makes, (h.has _ hmem hl).makes, fun _ => rfl⟩
    · exact ⟨_, strand.makes_any, fun h => absurd h hl⟩
  obtain ⟨strand', hstrands, hmakes', hleaves⟩ :=
    takeTurn_keeps hi able (World.keeps_crews s.plan.service n l crew H) hmakes hstands
  obtain ⟨crew', hcrew, hgives⟩ := hleaves.shared (fun _ h => h)
    (fun _ _ ⟨crew', hcrew, hgives, _⟩ => ⟨crew', hcrew, hgives⟩) (fun _ _ h => h)
    (fun _ ending h => h.finish ending)
  refine ⟨crew', hcrew, hgives.size.trans h.size, hlabels ▸ h.lead,
    fun place id hid => hlabels ▸ h.tours place id hid, fun e he hl => ?_⟩
  rw [hstrands] at he
  rcases Company.mem_set_label hn.labels hi he with rfl | ⟨hold, hne⟩
  · exact World.has_of_leaves hl (hrun hl ▸ hmakes') hleaves hcrew
  · exact (h.has e hold hl).give hl hne hgives

/-- A run stays manned whatever happens next. -/
theorem Manned.next (h : s.Manned n ids crew) (hn : s.Numbered) (hnext : Next s more s') :
    ∃ crew', s'.Manned n ids crew' := by
  cases hnext with
  | turn able => exact h.takeTurn hn able
  | @launch request scenarios suiteId suiteName accepted =>
    have hlt : n < s.world.crews.length := (List.getElem?_eq_some_iff.1 h.found).1
    have hold : ∀ l ∈ s.pool.strands.map (·.1),
        l ∈ (s.launch suiteId suiteName request scenarios).1.pool.strands.map (·.1) := by
      intro l hl
      rw [strands_launch, List.map_append]
      exact List.mem_append_left _ hl
    refine ⟨crew, (s.crew?_launch_of_lt _ _ _ _ hlt).trans h.found, h.size, hold _ h.lead,
      fun place id hid => hold _ (h.tours place id hid), ?_⟩
    intro e he hl
    exact h.has e (mem_of_mem_launch _ _ _ _ (hn.crews ▸ hlt) he hl) hl
  | _ => exact ⟨crew, h.found, h.size, h.lead, h.tours, h.has⟩

/-- A run that is launched has all of its strands. -/
theorem manned_launch (hn : s.Numbered) (suiteId suiteName : String) :
    (s.launch suiteId suiteName request scenarios).1.Manned s.world.registry.runs.length
      request.deviceIds (.new request.deviceIds.length) := by
  have hnew : ∀ e ∈ s.newStrands (s.newRun suiteId suiteName request) scenarios,
      e.1 ∈ (s.launch suiteId suiteName request scenarios).1.pool.strands.map (·.1) := by
    intro e he
    rw [strands_launch, List.map_append]
    exact List.mem_append_right _ (List.mem_map_of_mem he)
  refine ⟨hn.crew?_launch _ _ _ _, rfl, hnew _ (s.lead_mem_newStrands _ _),
    fun place id hid => hnew _ (s.tour_mem_newStrands _ hid), ?_⟩
  intro e he hrun
  obtain rfl | ⟨place, id, -, rfl⟩ := mem_newStrands _ (hn.mem_newStrands_of_launch he hrun)
  · refine ⟨?_, (fun _ h => by cases h), (fun _ h => by cases h)⟩
    exact Task.only_bind.2 ((RunTask.only_lead _).mono fun _ _ => trivial)
  · refine ⟨⟨rfl, fun _ => ?_⟩, (fun _ h => by cases h), (fun _ h => by cases h)⟩
    exact Task.only_bind.2 (((Tour.only_conduct _).weaken fun _ h => h.2.1).mono
      fun _ _ => trivial)

/-- In a session in which no strand is able to go on, now or later, the tours of a run that has
begun have ended. -/
theorem Manned.reported_of_still (h : s.Manned n ids crew) (htidy : s.Tidy)
    (hstill : ∀ e ∈ s.pool.strands, s.host.isAble s.world e.1 e.2 = false ∧ e.2.due? = none)
    (hbegun : crew.begun = true) {place : Nat} (hlt : place < crew.size) :
    place ∈ crew.reports.map (·.1) := by
  obtain ⟨id, hid⟩ : ∃ id, ids[place]? = some id := ⟨_, List.getElem?_eq_getElem (h.size ▸ hlt)⟩
  obtain ⟨⟨_, strand⟩, hmem, rfl⟩ := List.mem_map.1 (h.tours place id hid)
  have hhas := h.has _ hmem rfl
  obtain ⟨hable, hdue⟩ := hstill _ hmem
  cases strand with
  | ready task => cases hable
  | resting due next => cases hdue
  | calling due c next => cases hdue
  | ended ending => exact hhas.ended ending rfl
  | waiting c next =>
    exfalso
    have hleads : c.isLeads = false := hhas.makes.1
    have hsaves : c.saves = false := htidy.saves_eq_false hstill hmem
    cases c with
    | begun => simp [Host.isAble, host, World.host, World.admits, Role.run, h.found, hbegun] at hable
    | tours => cases hleads
    | save context artifact => cases hsaves
    | _ => cases hable

/-- In a session in which no strand is able to go on, now or later, the lead of a run has ended. -/
theorem Manned.ended_of_still (h : s.Manned n ids crew) (htidy : s.Tidy)
    (hstill : ∀ e ∈ s.pool.strands, s.host.isAble s.world e.1 e.2 = false ∧ e.2.due? = none)
    (hcomplete : (∀ place < crew.size, place ∈ crew.reports.map (·.1)) → crew.isComplete = true) :
    ∃ ending, (.lead n, .ended ending) ∈ s.pool.strands ∧
      crew.result = RoleResult.lead? ending := by
  obtain ⟨⟨_, strand⟩, hmem, rfl⟩ := List.mem_map.1 h.lead
  have hhas := h.has _ hmem rfl
  obtain ⟨hable, hdue⟩ := hstill _ hmem
  cases strand with
  | ready task => cases hable
  | resting due next => cases hdue
  | calling due c next => cases hdue
  | ended ending => exact ⟨ending, hmem, hhas.ended ending rfl⟩
  | waiting c next =>
    exfalso
    have hlead : c.OfLead := hhas.makes.1
    cases c with
    | begun => cases hlead.2 rfl
    | save context artifact => cases hlead.2 rfl
    | tours =>
      have hall := hcomplete fun place hlt =>
        h.reported_of_still htidy hstill (hhas.begun next rfl) hlt
      simp [Host.isAble, host, World.host, World.admits, Role.run, h.found, hall] at hable
    | _ => cases hable

/-- No task is forgotten while a run is under way. -/
theorem Next.covers (h : s.pool.Covers) (hnext : Next s more s') : s'.pool.Covers := by
  cases hnext with
  | turn able => exact h.turn _
  | @launch request scenarios suiteId suiteName accepted =>
    have hlead := (h.change (h := s.host) fun w =>
      { w with
        registry := (w.registry.add (s.newRun suiteId suiteName request)).insert
          s.world.registry.runs.length
        crews := w.crews ++ [.new request.deviceIds.length] }).spawn (h := s.host)
      (.lead s.world.registry.runs.length)
      (.ready do return .lead (← RunTask.lead (s.newRun suiteId suiteName request)))
    exact hlead.foldl_spawn (h := s.host)
      (fun e : String × Nat => ((Role.tour s.world.registry.runs.length e.2 e.1 : Role),
        s.tour (s.newRun suiteId suiteName request) scenarios e.2 e.1))
      request.deviceIds.zipIdx
  | clock time => exact h.change _
  | stop runId => exact h.change _
  | stopRun number => exact h.change _
  | _ => exact h

/-- No strand has been forgotten since the session was opened. -/
theorem Opened.covers (h : Opened s) : s.pool.Covers := by
  induction h with
  | setUp h =>
    intro i hi
    rw [(setUp_blank h).2.1] at hi
    exact absurd hi (Nat.not_lt_zero i)
  | next _ hnext ih => exact hnext.covers ih

/-- A run under way has its strands, in a session in which no task is forgotten. -/
theorem Underway.manned (hu : Underway s calls n request scenarios) :
    Opened s ∧ ∃ crew, s.Manned n request.deviceIds crew := by
  induction hu with
  | launch suiteId suiteName ho hcheck =>
    exact ⟨.next ho (.launch suiteId suiteName hcheck), _, manned_launch ho.numbered _ _⟩
  | next _ hnext ih =>
    obtain ⟨ho, crew, hmanned⟩ := ih
    exact ⟨.next ho hnext, hmanned.next ho.numbered hnext⟩

/-- A session keeps its plan. -/
theorem History.plan_eq (h : History s calls s') : s'.plan = s.plan := by
  induction h with
  | refl => rfl
  | step _ hnext ih => exact hnext.plan_eq.trans ih

/-- A run that is given time comes to its end, and has a result. -/
theorem Underway.ends (hu : Underway s calls n request scenarios) (hplan : s.plan.Furnished) :
    ∃ more r, History s more (s.wait n) ∧ (s.wait n).result? n = some r := by
  obtain ⟨more, hhistory⟩ := s.wait_history n
  have hu' := hu.history hhistory
  obtain ⟨ho, crew, hmanned⟩ := hu'.manned
  obtain ⟨-, runId, suiteId, suiteName, startedAt, hobserved⟩ := hu'.observed
  obtain ⟨b, ⟨hof, hsound, -⟩, -, habides⟩ := hobserved _ (chronicle_joined _ n scenarios)
  obtain rfl : crew = b.crew := Option.some.inj (hmanned.found.symm.trans hof.2.1)
  have hresult : (s.wait n).result? n = b.crew.result := result?_of_books hof
  cases hr : b.crew.result with
  | some r => exact ⟨more, r, hhistory, hresult.trans hr⟩
  | none =>
    exfalso
    let isOver (w : World σ) := ((w.crew? n).bind Crew.result).isSome
    have hopen : isOver (s.wait n).world = false := Option.isSome_eq_false_iff.2
      (Option.isNone_iff_eq_none.2 (hresult.trans hr))
    have hstill := Pool.standstill (h := s.host) ho.covers (fun _ _ => rfl) hopen
      (Pool.step?_run none isOver s.pool)
    obtain ⟨ending, hmem, hended⟩ := hmanned.ended_of_still (ho.tidy (hhistory.plan_eq ▸ hplan))
      hstill hsound.isComplete_of_forall
    obtain ⟨v, hends⟩ := habides _ hmem
    obtain ⟨-, r, joined, rfl, -⟩ := hends rfl
    rw [hr] at hended
    cases hended

end Session

end DeviceSuite
