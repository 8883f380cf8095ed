import DeviceSuite.Proofs.Run.Changes
import DeviceSuite.Proofs.Session.History
import DeviceSuite.Proofs.Task.Company
import DeviceSuite.Proofs.Task.Keeping
import Mathlib.Data.List.Nodup

/-!
# The numbers of the runs

Runs are numbered in the order in which they begin, and each has a crew and tasks of its own. A
run keeps its number: what happens later adds runs behind it.
-/

namespace DeviceSuite

namespace Pool

variable {C : Type} {R : C → Type} {α L σ ι : Type} {h : Host R α L σ}

/-- A strand that is added changes nothing that is shared. -/
@[simp] theorem spawn_shared (p : Pool R α L σ) (l : L) (strand : Strand R α) :
    (p.spawn h l strand).shared = p.shared := rfl

/-- A strand that is added stands behind the others. -/
@[simp] theorem spawn_strands (p : Pool R α L σ) (l : L) (strand : Strand R α) :
    (p.spawn h l strand).strands = p.strands ++ [(l, strand)] := rfl

/-- Strands that are added one after the other stand behind all others, and change nothing. -/
theorem foldl_spawn (entry : ι → L × Strand R α) (items : List ι) (p : Pool R α L σ) :
    (items.foldl (fun p i => p.spawn h (entry i).1 (entry i).2) p).shared = p.shared ∧
      (items.foldl (fun p i => p.spawn h (entry i).1 (entry i).2) p).strands =
        p.strands ++ items.map entry := by
  induction items generalizing p with
  | nil => simp
  | cons i rest ih =>
    obtain ⟨hshared, hstrands⟩ := ih (p.spawn h (entry i).1 (entry i).2)
    simp only [List.foldl_cons, hshared, hstrands, spawn_shared, spawn_strands, List.map_cons,
      List.append_assoc, List.singleton_append, and_self]

end Pool

namespace Registry

/-- To list a run begins none. -/
@[simp] theorem insert_runs (r : Registry) (number : Nat) : (r.insert number).runs = r.runs := by
  unfold insert
  split <;> rfl

/-- Putting a number among the active ones adds no other. -/
theorem mem_activate {runId : String} {number : Nat} {entries : List (String × Nat)}
    {e : String × Nat} (h : e ∈ activate runId number entries) :
    e = (runId, number) ∨ e ∈ entries := by
  induction entries with
  | nil => exact .inl (List.mem_singleton.1 h)
  | cons entry rest ih =>
    rw [activate] at h
    split at h
    · exact (List.mem_cons.1 h).imp id (List.mem_cons_of_mem _)
    · rcases List.mem_cons.1 h with rfl | h
      · exact .inr List.mem_cons_self
      · exact (ih h).imp id (List.mem_cons_of_mem _)

/-- A run that has been added is listed under its identifier, and all others as before. -/
theorem mem_insert_add {r : Registry} {run : RunState} {e : String × Nat}
    (h : e ∈ ((r.add run).insert r.runs.length).active) :
    e = (run.runId, r.runs.length) ∨ e ∈ r.active := by
  have hrun : (r.add run).run? r.runs.length = some run := by simp [run?, add]
  simp only [insert, hrun] at h
  exact mem_activate h

/-- To change a run begins none. -/
@[simp] theorem update_runs_length (r : Registry) (number : Nat) (f : RunState → RunState) :
    (r.update number f).runs.length = r.runs.length := by
  simp [update]

/-- To stop a run begins none. -/
@[simp] theorem stop_runs_length (r : Registry) (runId : String) :
    (r.stop runId).runs.length = r.runs.length := by
  unfold stop
  split <;> simp

/-- To stop a run takes none off the list. -/
@[simp] theorem stop_active (r : Registry) (runId : String) :
    (r.stop runId).active = r.active := by
  unfold stop
  split <;> rfl

end Registry

namespace World

variable {σ : Type}

/-- There are so many runs, and each has a crew; no others are listed as active. -/
def Numbers (k : Nat) (w : World σ) : Prop :=
  w.registry.runs.length = k ∧ w.crews.length = k ∧ ∀ e ∈ w.registry.active, e.2 < k

variable {k : Nat} {w : World σ}

/-- To stop all runs begins none. -/
theorem Numbers.stopAll (h : w.Numbers k) : w.stopAll.Numbers k := by
  have hstop : (w.registry.active.foldl (fun r entry => r.stop entry.1) w.registry).runs.length =
      k ∧ (w.registry.active.foldl (fun r entry => r.stop entry.1) w.registry).active =
        w.registry.active := by
    apply List.foldlRecOn (motive := fun r : Registry =>
      r.runs.length = k ∧ r.active = w.registry.active)
    · exact ⟨h.1, rfl⟩
    · intro r hr e _
      exact ⟨(r.stop_runs_length e.1).trans hr.1, (r.stop_active e.1).trans hr.2⟩
  exact ⟨hstop.1, h.2.1, hstop.2.symm ▸ h.2.2⟩

/-- What a device asks for begins no run. -/
theorem Numbers.heed (h : w.Numbers k) (signal : Signal) : (w.heed signal).Numbers k := by
  cases signal with
  | snapshot => exact h
  | stop => exact h.stopAll

/-- To announce a call begins no run. -/
theorem Numbers.announce (h : w.Numbers k) (l : Role) (c : RunCall) :
    (w.announce l c).Numbers k := by
  cases c with
  | tours => exact ⟨h.1, by simpa [World.announce, updateCrew] using h.2.1, h.2.2⟩
  | _ => exact h

/-- To accept a call begins no run. -/
theorem Numbers.accept (service : Service DeviceCall.Reply σ) (h : w.Numbers k) (l : Role)
    (c : RunCall) : (w.accept service l c).1.Numbers k :=
  accept_keeps service l c (fun _ _ hw => hw) (fun _ signal hw => hw.heed signal) h

/-- To answer a call begins no run. -/
theorem Numbers.answer (service : Service DeviceCall.Reply σ) (h : w.Numbers k) (l : Role)
    (c : RunCall) : (w.answer service l c).1.Numbers k := by
  have hanswers := w.answers service l c
  refine ⟨?_, hanswers.crews_eq ▸ h.2.1, fun e he => h.2.2 e (hanswers.active_subset he)⟩
  cases c with
  | update f => simpa [World.answer, updateRun] using h.1
  | _ => simpa [hanswers.runs_eq] using h.1

/-- A task that ends begins no run. -/
theorem Numbers.finish (h : w.Numbers k) (l : Role) (ending : Option RoleResult) :
    (w.finish l ending).Numbers k := by
  cases l <;> exact ⟨h.1, by simpa [World.finish, updateCrew] using h.2.1, h.2.2⟩

end World

namespace Session

variable {σ : Type}

/-! ## Launching -/

/-- A run as it begins next. -/
def newRun (s : Session σ) (suiteId suiteName : String) (request : Request) : RunState :=
  .new (s.plan.runId s.world.registry.runs.length) suiteId suiteName request
    (startInstant s.now s.world.registry.runs.length)

/-- The tasks of a run that begins: its lead, and a tour for each of its devices. -/
def newStrands (s : Session σ) (run : RunState) (scenarios : List Graph) :
    List (Role × Strand RunCall.Reply RoleResult) :=
  (.lead s.world.registry.runs.length, .ready do return .lead (← RunTask.lead run)) ::
    run.request.deviceIds.zipIdx.map fun (id, place) =>
      (.tour s.world.registry.runs.length place id, s.tour run scenarios place id)

variable (s : Session σ) (suiteId suiteName : String) (request : Request) (scenarios : List Graph)

/-- A launch adds a run, its handle, its crew and its tasks behind all others, and nothing else. -/
theorem launch_adds :
    let run := s.newRun suiteId suiteName request
    let number := s.world.registry.runs.length
    ∃ pool, (s.launch suiteId suiteName request scenarios).1 =
        { s with handles := s.handles ++ [number], pool := pool } ∧
      pool.shared = { s.world with
        registry := (s.world.registry.add run).insert number
        crews := s.world.crews ++ [.new request.deviceIds.length] } ∧
      pool.strands = s.pool.strands ++ s.newStrands run scenarios := by
  refine ⟨_, rfl, ?_⟩
  have h := Pool.foldl_spawn (h := s.host)
    (fun e : String × Nat => ((Role.tour s.world.registry.runs.length e.2 e.1 : Role),
      s.tour (s.newRun suiteId suiteName request) scenarios e.2 e.1))
    request.deviceIds.zipIdx
    (((s.change fun w =>
      { w with
        registry := (w.registry.add (s.newRun suiteId suiteName request)).insert
          s.world.registry.runs.length
        crews := w.crews ++ [.new request.deviceIds.length] }).pool).spawn s.host
      (.lead s.world.registry.runs.length)
      (.ready do return .lead (← RunTask.lead (s.newRun suiteId suiteName request))))
  refine ⟨h.1, ?_⟩
  apply h.2.trans
  simp [newStrands, newRun, RunState.new, change, Pool.change, Pool.lineUp]

/-- The world after a launch has one more run, which is listed, and its crew. -/
theorem world_launch : (s.launch suiteId suiteName request scenarios).1.world = { s.world with
    registry := (s.world.registry.add (s.newRun suiteId suiteName request)).insert
      s.world.registry.runs.length
    crews := s.world.crews ++ [.new request.deviceIds.length] } := by
  obtain ⟨pool, hpool, hshared, -⟩ := s.launch_adds suiteId suiteName request scenarios
  rw [hpool]
  exact hshared

/-- The strands after a launch are those before it and those of the run. -/
theorem strands_launch : (s.launch suiteId suiteName request scenarios).1.pool.strands =
    s.pool.strands ++ s.newStrands (s.newRun suiteId suiteName request) scenarios := by
  obtain ⟨pool, hpool, -, hstrands⟩ := s.launch_adds suiteId suiteName request scenarios
  rw [hpool]
  exact hstrands

/-- A launch does not change the plan. -/
theorem plan_launch : (s.launch suiteId suiteName request scenarios).1.plan = s.plan := rfl

/-- A launch takes no time. -/
theorem now_launch : (s.launch suiteId suiteName request scenarios).1.now = s.now := by
  rw [now, world_launch]
  rfl

/-- The run that is launched is found under its number. -/
theorem run?_launch : (s.launch suiteId suiteName request scenarios).1.world.registry.run?
    s.world.registry.runs.length = some (s.newRun suiteId suiteName request) := by
  simp [world_launch, Registry.run?, Registry.add]

/-- The runs that have begun before are as they were. -/
theorem run?_launch_of_lt {n : Nat} (hn : n < s.world.registry.runs.length) :
    (s.launch suiteId suiteName request scenarios).1.world.registry.run? n =
      s.world.registry.run? n := by
  simp [world_launch, Registry.run?, Registry.add, List.getElem?_append_left hn]

/-- A launch raises and lowers no flag of another run. -/
theorem isStopped_launch_of_lt {n : Nat} (hn : n < s.world.registry.runs.length) :
    (s.launch suiteId suiteName request scenarios).1.world.isStopped n = s.world.isStopped n := by
  rw [World.isStopped, run?_launch_of_lt _ _ _ _ _ hn, World.isStopped]

/-- So are their crews. -/
theorem crew?_launch_of_lt {n : Nat} (hn : n < s.world.crews.length) :
    (s.launch suiteId suiteName request scenarios).1.world.crew? n = s.world.crew? n := by
  rw [world_launch]
  exact List.getElem?_append_left hn

/-- The lead of a run is among its strands. -/
theorem lead_mem_newStrands (run : RunState) :
    (.lead s.world.registry.runs.length, .ready do return .lead (← RunTask.lead run)) ∈
      s.newStrands run scenarios :=
  List.mem_cons_self

/-- Each tour of a run is among its strands. -/
theorem tour_mem_newStrands {run : RunState} {place : Nat} {id : String}
    (hid : run.request.deviceIds[place]? = some id) :
    (.tour s.world.registry.runs.length place id, s.tour run scenarios place id) ∈
      s.newStrands run scenarios :=
  List.mem_cons_of_mem _ (List.mem_map.2 ⟨(id, place), List.mem_zipIdx_iff_getElem?.2 hid, rfl⟩)

variable {s}

/-- A task of a run that begins is its lead, or the tour of one of its devices. -/
theorem mem_newStrands {run : RunState} {e : Role × Strand RunCall.Reply RoleResult}
    (he : e ∈ s.newStrands run scenarios) :
    e = (.lead s.world.registry.runs.length, .ready do return .lead (← RunTask.lead run)) ∨
      ∃ place id, run.request.deviceIds[place]? = some id ∧
        e = (.tour s.world.registry.runs.length place id, s.tour run scenarios place id) := by
  rcases List.mem_cons.1 he with rfl | he
  · exact .inl rfl
  · obtain ⟨⟨id, place⟩, hin, rfl⟩ := List.mem_map.1 he
    exact .inr ⟨place, id, List.mem_zipIdx_iff_getElem?.1 hin, rfl⟩

/-! ## Numbers -/

/-- Each run has a crew, only runs are listed as active, and each strand has a label of its own,
which names a run. -/
structure Numbered (s : Session σ) : Prop where
  crews : s.world.crews.length = s.world.registry.runs.length
  listed : ∀ e ∈ s.world.registry.active, e.2 < s.world.registry.runs.length
  labels : (s.pool.strands.map (·.1)).Nodup
  runs : ∀ l ∈ s.pool.strands.map (·.1), l.run < s.world.registry.runs.length

/-- The strands of a run have its number. -/
theorem newStrands_run {run : RunState} {e : Role × Strand RunCall.Reply RoleResult}
    (he : e ∈ s.newStrands run scenarios) : e.1.run = s.world.registry.runs.length := by
  obtain rfl | ⟨place, id, -, rfl⟩ := mem_newStrands scenarios he <;> rfl

/-- The strands of a run have labels of their own. -/
theorem newStrands_labels (s : Session σ) (run : RunState) :
    ((s.newStrands run scenarios).map (·.1)).Nodup := by
  simp only [newStrands, List.map_cons, List.map_map, List.nodup_cons]
  constructor
  · intro h
    obtain ⟨e, -, he⟩ := List.mem_map.1 h
    cases he
  · have hplaces : (run.request.deviceIds.zipIdx.map (some ∘ Prod.snd)).Nodup := by
      rw [← List.map_map, List.zipIdx_map_snd]
      exact (List.nodup_range' 1).map fun _ _ => Option.some.inj
    apply List.Nodup.of_map Role.place?
    simpa [Function.comp_def, Role.place?] using hplaces

/-- A launch makes one more run. -/
theorem runs_length_launch :
    (s.launch suiteId suiteName request scenarios).1.world.registry.runs.length =
      s.world.registry.runs.length + 1 := by
  simp [world_launch, Registry.add]

/-- The crew of a run that is launched has nothing to report yet. -/
theorem Numbered.crew?_launch {s : Session σ} (h : s.Numbered) (suiteId suiteName : String)
    (request : Request) (scenarios : List Graph) :
    (s.launch suiteId suiteName request scenarios).1.world.crew? s.world.registry.runs.length =
      some (.new request.deviceIds.length) := by
  rw [world_launch, ← h.crews]
  simp [World.crew?]

/-- The tasks of a run that has begun before are as they were. -/
theorem mem_of_mem_launch {n : Nat} (hn : n < s.world.registry.runs.length)
    {e : Role × Strand RunCall.Reply RoleResult}
    (he : e ∈ (s.launch suiteId suiteName request scenarios).1.pool.strands) (hrun : e.1.run = n) :
    e ∈ s.pool.strands := by
  rw [strands_launch] at he
  rcases List.mem_append.1 he with hold | hnew
  · exact hold
  · rw [← hrun, newStrands_run scenarios hnew] at hn
    exact absurd hn (Nat.lt_irrefl _)

/-- The tasks of a run that is launched are those with which it begins. -/
theorem Numbered.mem_newStrands_of_launch {s : Session σ} (h : s.Numbered)
    {suiteId suiteName : String} {request : Request} {scenarios : List Graph}
    {e : Role × Strand RunCall.Reply RoleResult}
    (he : e ∈ (s.launch suiteId suiteName request scenarios).1.pool.strands)
    (hrun : e.1.run = s.world.registry.runs.length) :
    e ∈ s.newStrands (s.newRun suiteId suiteName request) scenarios := by
  rw [strands_launch] at he
  rcases List.mem_append.1 he with hold | hnew
  · exact absurd hrun (Nat.ne_of_lt (h.runs _ (List.mem_map_of_mem hold)))
  · exact hnew

/-- The strands of a run are new. -/
theorem Numbered.not_mem_newStrands {s : Session σ} (h : s.Numbered) {run : RunState}
    {scenarios : List Graph} {e : Role × Strand RunCall.Reply RoleResult}
    (he : e ∈ s.newStrands run scenarios) : e.1 ∉ s.pool.strands.map (·.1) := fun hold =>
  Nat.lt_irrefl _ (newStrands_run scenarios he ▸ h.runs e.1 hold)

/-- A launch numbers its run. -/
theorem Numbered.launch {s : Session σ} (h : s.Numbered) (suiteId suiteName : String)
    (request : Request) (scenarios : List Graph) :
    (s.launch suiteId suiteName request scenarios).1.Numbered := by
  constructor
  case crews => simpa [world_launch, Registry.add] using h.crews
  case listed =>
    intro e he
    rw [runs_length_launch]
    rw [world_launch] at he
    rcases Registry.mem_insert_add he with rfl | he
    · exact Nat.lt_succ_self _
    · exact Nat.lt_succ_of_lt (h.listed e he)
  case labels =>
    rw [strands_launch, List.map_append]
    refine List.nodup_append.2 ⟨h.labels, s.newStrands_labels scenarios _, ?_⟩
    rintro l hold l' hnew rfl
    obtain ⟨e, he, rfl⟩ := List.mem_map.1 hnew
    exact h.not_mem_newStrands he hold
  case runs =>
    intro l hl
    rw [runs_length_launch]
    rw [strands_launch, List.map_append, List.mem_append] at hl
    rcases hl with hold | hnew
    · have hlt := h.runs l hold
      omega
    · obtain ⟨e, he, rfl⟩ := List.mem_map.1 hnew
      rw [newStrands_run scenarios he]
      omega

/-- What a turn does to the strands: one of them goes on. -/
theorem takeTurn_spec {s : Session σ} {i : Nat} (able : s.pool.isAble s.host i = true) :
    ∃ l strand, s.pool.strands[i]? = some (l, strand) ∧
      s.host.isAble s.world l strand = true ∧
      (s.takeTurn i).world = (s.host.resume l strand s.world).1 ∧
      (s.takeTurn i).pool.strands =
        s.pool.strands.set i (l, (s.host.resume l strand s.world).2) ∧
      s.callsOfTurn i = s.host.callsOf l strand s.world := by
  obtain ⟨⟨l, strand⟩, hi, able⟩ := (Option.any_eq_true _ _).1 able
  refine ⟨l, strand, hi, able, ?_, ?_, ?_⟩ <;>
    simp [takeTurn, callsOfTurn, world, Pool.turn, Pool.lineUp, hi]

section Keeps

variable {s : Session σ} {i : Nat} {l : Role} {strand : Strand RunCall.Reply RoleResult}
  {H : RunCall → Prop} {Q : RoleResult → Prop}

/-- What the calls of a strand keep true of the world, its turn keeps true. -/
theorem takeTurn_keeps {P : World σ → Prop} {W Y : RunCall → World σ → Prop}
    (hi : s.pool.strands[i]? = some (l, strand)) (able : s.pool.isAble s.host i = true)
    (hk : s.host.Keeps l H P W Y) (hmakes : strand.Makes H Q)
    (hstands : strand.Stands P W Y s.world) :
    ∃ strand', (s.takeTurn i).pool.strands = s.pool.strands.set i (l, strand') ∧
      strand'.Makes H Q ∧ s.host.Leaves l P W Y ((s.takeTurn i).world, strand') := by
  obtain ⟨l', strand', hi', hable, hworld, hstrands, -⟩ := takeTurn_spec able
  obtain ⟨rfl, rfl⟩ := Prod.mk.inj (Option.some.inj (hi'.symm.trans hi))
  exact ⟨_, hstrands, hworld ▸ hk.resume hable hmakes hstands⟩

/-- What the calls of a strand keep true of the world and the record, its turn keeps true. -/
theorem takeTurn_records {calls : Calls} {P : World σ × Calls → Prop}
    {W Y : RunCall → World σ × Calls → Prop}
    (hi : s.pool.strands[i]? = some (l, strand)) (able : s.pool.isAble s.host i = true)
    (hk : s.host.recorded.Keeps l H P W Y) (hmakes : strand.Makes H Q)
    (hstands : strand.Stands P W Y (s.world, calls)) :
    ∃ strand', (s.takeTurn i).pool.strands = s.pool.strands.set i (l, strand') ∧
      strand'.Makes H Q ∧ s.host.recorded.Leaves l P W Y
        (((s.takeTurn i).world, calls ++ s.callsOfTurn i), strand') := by
  obtain ⟨l', strand', hi', hable, hworld, hstrands, hcalls⟩ := takeTurn_spec able
  obtain ⟨rfl, rfl⟩ := Prod.mk.inj (Option.some.inj (hi'.symm.trans hi))
  have hkept := hk.resume ((s.host.recorded_isAble (s.world, calls) _ _).trans hable) hmakes hstands
  rw [s.host.recorded_resume, ← hworld, ← hcalls] at hkept
  exact ⟨_, hstrands, hkept⟩

end Keeps

/-- A task has one strand. -/
theorem Numbered.strand_inj {s : Session σ} (hn : s.Numbered) {l : Role}
    {strand strand' : Strand RunCall.Reply RoleResult} (h : (l, strand) ∈ s.pool.strands)
    (h' : (l, strand') ∈ s.pool.strands) : strand = strand' := by
  obtain ⟨i, hi⟩ := List.getElem?_of_mem h
  obtain ⟨j, hj⟩ := List.getElem?_of_mem h'
  have hlabels : (s.pool.strands.map (·.1))[i]? = (s.pool.strands.map (·.1))[j]? := by
    rw [List.getElem?_map, List.getElem?_map, hi, hj]
    rfl
  have hlt : i < (s.pool.strands.map (·.1)).length := by
    simpa using (List.getElem?_eq_some_iff.1 hi).1
  obtain rfl := (List.getElem?_inj hlt hn.labels).1 hlabels
  exact (Prod.mk.inj (Option.some.inj (hi.symm.trans hj))).2

/-- A turn begins no run. -/
theorem Numbered.numbers_takeTurn {s : Session σ} (h : s.Numbered) {i : Nat}
    (able : s.pool.isAble s.host i = true) :
    (s.takeTurn i).world.Numbers s.world.registry.runs.length := by
  obtain ⟨l, strand, -, able, hworld, -⟩ := takeTurn_spec able
  exact hworld ▸ Host.resume_keeps (fun _ c h => h.announce l c) (fun _ c h => h.accept _ l c)
    (fun _ c h => h.answer _ l c) (fun _ r h => h.finish l r) able ⟨rfl, h.crews, h.listed⟩

/-- A turn leaves the runs numbered. -/
theorem Numbered.takeTurn {s : Session σ} (h : s.Numbered) {i : Nat}
    (able : s.pool.isAble s.host i = true) : (s.takeTurn i).Numbered := by
  have hnumbers := h.numbers_takeTurn able
  obtain ⟨l, strand, hi, -, -, hstrands, -⟩ := takeTurn_spec able
  have hlabels : (s.takeTurn i).pool.strands.map (·.1) = s.pool.strands.map (·.1) := by
    rw [hstrands]
    exact Company.map_set_label hi _
  exact ⟨hnumbers.2.1.trans hnumbers.1.symm, hnumbers.1 ▸ hnumbers.2.2, hlabels ▸ h.labels,
    fun l hl => hnumbers.1 ▸ h.runs l (hlabels ▸ hl)⟩

/-- Runs stay numbered whatever happens next. -/
theorem Numbered.next {s s' : Session σ} {more : Calls} (h : s.Numbered) (hnext : Next s more s') :
    s'.Numbered := by
  cases hnext with
  | turn able => exact h.takeTurn able
  | launch suiteId suiteName accepted => exact h.launch suiteId suiteName _ _
  | clock time => exact ⟨h.crews, h.listed, h.labels, h.runs⟩
  | stop runId =>
    have hlen : (s.stop runId).1.world.registry.runs.length = s.world.registry.runs.length :=
      Registry.stop_runs_length _ runId
    have hactive : (s.stop runId).1.world.registry.active = s.world.registry.active :=
      Registry.stop_active _ runId
    exact ⟨h.crews.trans hlen.symm, fun e he => hlen ▸ h.listed e (hactive ▸ he), h.labels,
      fun l hl => hlen ▸ h.runs l hl⟩
  | stopRun number =>
    have hlen : (s.stopRun number).world.registry.runs.length = s.world.registry.runs.length :=
      Registry.update_runs_length _ number _
    exact ⟨h.crews.trans hlen.symm, fun e he => hlen ▸ h.listed e he, h.labels,
      fun l hl => hlen ▸ h.runs l hl⟩
  | release number => exact ⟨h.crews, h.listed, h.labels, h.runs⟩
  | insertScenario g => exact ⟨h.crews, h.listed, h.labels, h.runs⟩
  | removeScenario id => exact ⟨h.crews, h.listed, h.labels, h.runs⟩
  | disconnect id => exact ⟨h.crews, h.listed, h.labels, h.runs⟩

/-- A session that is set up has no runs and no tasks, and the desk of its plan. -/
theorem setUp_blank {plan : SessionPlan σ} {source : SettingsSource} {s : Session σ}
    (h : setUp plan source = .ok s) :
    s.plan = plan ∧ s.pool.strands = [] ∧ s.world.registry = .empty ∧ s.world.crews = [] ∧
      ∃ places, s.world.desk = plan.desk.map fun make => make places := by
  rw [setUp] at h
  cases hread : source.read with
  | error e => simp [hread, bind, Except.bind] at h
  | ok settings =>
    by_cases hplaces : settings.artifactConcurrency = 0
    · simp [hread, hplaces, bind, Except.bind] at h
    · simp only [hread, hplaces, bind, Except.bind, pure, Except.pure] at h
      cases h
      exact ⟨rfl, rfl, rfl, rfl, _, rfl⟩

/-- A session that is set up has what its plan gives it, at the first instant. -/
theorem setUp_eq {plan : SessionPlan σ} {source : SettingsSource} {s : Session σ}
    (h : setUp plan source = .ok s) :
    s.scenarios = plan.scenarios ∧ s.connected = plan.devices.map (·.1) ∧ s.world.now = 0 ∧
      s.world.devices = .ofList plan.devices ∧ s.world.recorder = plan.recorder ∧
      s.world.archive = plan.archive := by
  rw [setUp] at h
  cases hread : source.read with
  | error e => simp [hread, bind, Except.bind] at h
  | ok settings =>
    by_cases hplaces : settings.artifactConcurrency = 0
    · simp [hread, hplaces, bind, Except.bind] at h
    · simp only [hread, hplaces, bind, Except.bind, pure, Except.pure] at h
      cases h
      exact ⟨rfl, rfl, rfl, rfl, rfl, rfl⟩

/-- A session that is set up has no runs, and so they are numbered. -/
theorem numbered_setUp {plan : SessionPlan σ} {source : SettingsSource} {s : Session σ}
    (h : setUp plan source = .ok s) : s.Numbered := by
  obtain ⟨-, hstrands, hregistry, hcrews, -⟩ := setUp_blank h
  constructor
  case crews => rw [hcrews, hregistry]; rfl
  case listed => simp [hregistry, Registry.empty]
  case labels => simp [hstrands]
  case runs => simp [hstrands]

/-- Runs have been numbered since the session was opened. -/
theorem Opened.numbered {s : Session σ} (h : Opened s) : s.Numbered := by
  induction h with
  | setUp h => exact numbered_setUp h
  | next _ hnext ih => exact ih.next hnext

/-- What the tasks of every run that is launched may call, the tasks of a session call. -/
theorem Opened.makes {H : SessionPlan σ → Role → RunCall → Prop}
    (hnew : ∀ (s : Session σ) (run : RunState) (scenarios : List Graph),
      run.runId = s.plan.runId s.world.registry.runs.length →
        ∀ e ∈ s.newStrands run scenarios, e.2.Makes (H s.plan e.1) fun _ => True)
    {s : Session σ} (ho : s.Opened) :
    ∀ e ∈ s.pool.strands, e.2.Makes (H s.plan e.1) fun _ => True := by
  induction ho with
  | setUp h =>
    intro e he
    rw [(setUp_blank h).2.1] at he
    cases he
  | @next s s' more ho hnext ih =>
    cases hnext with
    | @turn i able =>
      obtain ⟨l, strand, hi, hable, -, hstrands, -⟩ := takeTurn_spec able
      have hkeeps : s.host.Keeps l (H s.plan l) (fun _ => True) (fun _ _ => True)
          fun _ _ => True :=
        Host.keeps_of_phases (fun _ _ _ _ => trivial) (fun _ _ _ _ _ => trivial)
          fun _ _ _ _ => trivial
      have hstands : strand.Stands (fun _ : World σ => True) (fun _ _ => True) (fun _ _ => True)
          s.world := by
        cases strand <;> trivial
      intro e he
      rw [hstrands] at he
      rcases List.mem_or_eq_of_mem_set he with hold | rfl
      · exact ih e hold
      · exact (hkeeps.resume hable (ih _ (List.mem_of_getElem? hi)) hstands).1
    | @launch request scenarios suiteId suiteName accepted =>
      intro e he
      rw [strands_launch] at he
      rcases List.mem_append.1 he with hold | hnew'
      · exact ih e hold
      · exact hnew s _ scenarios rfl e hnew'
    | _ => exact ih

end Session

end DeviceSuite
