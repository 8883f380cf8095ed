import DeviceSuite.Proofs.Codec.Json
import DeviceSuite.Session.Basic
import Mathlib.Data.List.Forall2

/-!
# What is asked of a request

A request is checked for one thing after the other: that it names devices, scenarios and a repeat,
then each of its devices, then each of its scenarios. It is refused for the first of these that it
fails, and what is granted are its scenarios in the order in which it names them.
-/

namespace DeviceSuite

/-- A word is at least one if it is not nought. -/
theorem one_le_iff_ne_zero {n : UInt32} : 1 ≤ n ↔ n ≠ 0 := by
  rw [UInt32.le_iff_toNat_le, ← UInt32.toNat_inj.ne]
  exact Nat.one_le_iff_ne_zero

section Traversals

variable {ε α β : Type}

/-- A guard fails with its error if its condition is met. -/
theorem guard_eq_error {p : Prop} [Decidable p] {e e' : ε} :
    (if p then .error e' else .ok () : Except ε Unit) = .error e ↔ p ∧ e' = e := by
  split <;> simp [*]

/-- A guard passes if its condition is not met. -/
theorem guard_eq_ok {p : Prop} [Decidable p] {e : ε} :
    (if p then .error e else .ok () : Except ε Unit) = .ok () ↔ ¬ p := by
  split <;> simp [*]

/-- One thing after the other comes to the end when both do. -/
theorem seq_eq_ok {x : Except ε Unit} {y : Except ε β} {b : β} :
    (x >>= fun _ => y) = .ok b ↔ x = .ok () ∧ y = .ok b :=
  bind_eq_ok.trans ⟨fun ⟨_, hx, hy⟩ => ⟨hx, hy⟩, fun ⟨hx, hy⟩ => ⟨(), hx, hy⟩⟩

/-- A traversal comes to the end when every item passes. -/
theorem forM_eq_ok {f : α → Except ε Unit} {xs : List α} :
    xs.forM f = .ok () ↔ ∀ x ∈ xs, f x = .ok () := by
  induction xs with
  | nil => exact ⟨fun _ => List.forall_mem_nil _, fun _ => rfl⟩
  | cons x rest ih =>
    rw [List.forall_mem_cons, ← ih]
    exact seq_eq_ok

/-- A traversal fails with the first item that fails. -/
theorem forM_eq_error {f : α → Except ε Unit} {xs : List α} {e : ε} :
    xs.forM f = .error e ↔ ∃ before x after, xs = before ++ x :: after ∧
      (∀ y ∈ before, f y = .ok ()) ∧ f x = .error e := by
  induction xs with
  | nil => exact ⟨nofun, fun ⟨_, _, _, h, _⟩ => by simp at h⟩
  | cons y rest ih =>
    have hcons : (y :: rest).forM f = (f y >>= fun _ => rest.forM f) := rfl
    rw [hcons]
    constructor
    · intro h
      cases hy : f y with
      | error e' =>
        rw [hy] at h
        exact ⟨[], y, rest, rfl, List.forall_mem_nil _, hy.trans h⟩
      | ok =>
        rw [hy] at h
        obtain ⟨before, x, after, rfl, hbefore, hx⟩ := ih.1 h
        exact ⟨y :: before, x, after, rfl, List.forall_mem_cons.2 ⟨hy, hbefore⟩, hx⟩
    · rintro ⟨before, x, after, hsplit, hbefore, hx⟩
      rcases List.cons_eq_append_iff.1 hsplit with ⟨rfl, hhead⟩ | ⟨before, rfl, rfl⟩
      · obtain ⟨rfl, -⟩ := List.cons.inj hhead
        rw [hx]
        rfl
      · obtain ⟨hy, hbefore⟩ := List.forall_mem_cons.1 hbefore
        rw [hy]
        exact ih.2 ⟨before, x, after, rfl, hbefore, hx⟩

/-- A traversal gives for every item what comes of it. -/
theorem mapM_eq_ok {f : α → Except ε β} {xs : List α} {ys : List β} :
    xs.mapM f = .ok ys ↔ List.Forall₂ (fun x y => f x = .ok y) xs ys := by
  induction xs generalizing ys with
  | nil =>
    rw [List.mapM_nil, List.forall₂_nil_left_iff]
    exact ⟨fun h => (Except.ok.inj h).symm, fun h => congrArg _ h.symm⟩
  | cons x rest ih =>
    rw [List.mapM_cons, bind_eq_ok, List.forall₂_cons_left_iff]
    constructor
    · rintro ⟨y, hx, h⟩
      obtain ⟨zs, hrest, h⟩ := bind_eq_ok.1 h
      exact ⟨y, zs, hx, ih.1 hrest, (Except.ok.inj h).symm⟩
    · rintro ⟨y, zs, hx, hrest, rfl⟩
      exact ⟨y, hx, bind_eq_ok.2 ⟨zs, ih.2 hrest, rfl⟩⟩

/-- What comes of the items aside, a traversal that collects it is one that does not. -/
theorem map_mapM (f : α → Except ε β) (xs : List α) :
    (xs.mapM f).map (fun _ => ()) = xs.forM fun x => (f x).map fun _ => () := by
  induction xs with
  | nil => rfl
  | cons x rest ih =>
    have hcons : ((x :: rest).forM fun x => (f x).map fun _ => ()) =
        ((f x).map (fun _ => ()) >>= fun _ => rest.forM fun x => (f x).map fun _ => ()) := rfl
    rw [List.mapM_cons, hcons, ← ih]
    cases f x with
    | error e => rfl
    | ok y => cases rest.mapM f <;> rfl

end Traversals

/-- Something that is asked of a request. -/
inductive Check where
  | devices
  | scenarios
  | repeats
  | device (id : String)
  | scenario (id : String)

/-- All that is asked of a request, in this order. -/
def Request.checks (r : Request) : List Check :=
  [.devices, .scenarios, .repeats] ++ r.deviceIds.map .device ++ r.scenarioIds.map .scenario

namespace Session

variable {σ : Type}

/-- Check that a device is connected. -/
def checkDevice (s : Session σ) (id : String) : Except SessionError Unit :=
  if id ∈ s.connected then .ok () else .error (.refused (.deviceNotFound id))

/-- Fetch a scenario that can be run. -/
def fetchScenario (s : Session σ) (id : String) : Except SessionError Graph := do
  match ← (s.scenarios.fetch id).mapError .scenarioStore with
  | none => throw (.refused (.scenarioNotFound id))
  | some graph =>
    if graph.startNode?.isNone then throw (.refused (.noStartNode id))
    return graph

/-- What the checks of a request come to: the scenarios, or the reason of the first that fails. -/
def check (s : Session σ) (request : Request) : Except SessionError (List Graph) := do
  if request.deviceIds.isEmpty then throw (.refused .noDevices)
  if request.scenarioIds.isEmpty then throw (.refused .noScenarios)
  if request.repeatCount = 0 then throw (.refused (.repeatCount 0))
  request.deviceIds.forM s.checkDevice
  request.scenarioIds.mapM s.fetchScenario

/-- No scenario that can be run is found under an identifier, for this reason. -/
inductive Misses (s : Session σ) (id : String) : SessionError → Prop where
  | store {fault : StoreError} : s.scenarios.fetch id = .error fault →
    Misses s id (.scenarioStore fault)
  | scenario : s.scenarios.fetch id = .ok none → Misses s id (.refused (.scenarioNotFound id))
  | startNode {g : Graph} : s.scenarios.fetch id = .ok (some g) → g.startNode? = none →
    Misses s id (.refused (.noStartNode id))

/-- A request fails a check, for this reason. -/
inductive Fails (s : Session σ) (r : Request) : Check → SessionError → Prop where
  | devices : r.deviceIds = [] → Fails s r .devices (.refused .noDevices)
  | scenarios : r.scenarioIds = [] → Fails s r .scenarios (.refused .noScenarios)
  | repeats : r.repeatCount = 0 → Fails s r .repeats (.refused (.repeatCount 0))
  | device {id : String} : id ∉ s.connected →
    Fails s r (.device id) (.refused (.deviceNotFound id))
  | scenario {id : String} {e : SessionError} : s.Misses id e → Fails s r (.scenario id) e

/-- The reason for which a request is refused: that of the first check that it fails. -/
def FirstFails (s : Session σ) (r : Request) (e : SessionError) : Prop :=
  ∃ before c after, r.checks = before ++ c :: after ∧
    (∀ b ∈ before, ∀ e', ¬ s.Fails r b e') ∧ s.Fails r c e

/-- A scenario that is stored under an identifier and can be run. -/
def Loads (s : Session σ) (id : String) (g : Graph) : Prop :=
  s.scenarios.fetch id = .ok (some g) ∧ g.startNode? ≠ none

/-- A request is as it should be, and these are its scenarios. -/
structure Grants (s : Session σ) (r : Request) (graphs : List Graph) : Prop where
  devices : r.deviceIds ≠ []
  scenarios : r.scenarioIds ≠ []
  repeats : 1 ≤ r.repeatCount
  connected : ∀ id ∈ r.deviceIds, id ∈ s.connected
  loaded : List.Forall₂ s.Loads r.scenarioIds graphs

/-- Make a check. -/
def test (s : Session σ) (r : Request) : Check → Except SessionError Unit
  | .devices => if r.deviceIds.isEmpty then .error (.refused .noDevices) else .ok ()
  | .scenarios => if r.scenarioIds.isEmpty then .error (.refused .noScenarios) else .ok ()
  | .repeats => if r.repeatCount = 0 then .error (.refused (.repeatCount 0)) else .ok ()
  | .device id => s.checkDevice id
  | .scenario id => (s.fetchScenario id).map fun _ => ()

variable {s : Session σ} {r : Request} {graphs : List Graph} {e : SessionError}

/-! ## One check -/

section Fetch

variable {id : String} {fault : StoreError} {g : Graph}

/-- A store that fails is an error of that store. -/
theorem fetchScenario_of_error (h : s.scenarios.fetch id = .error fault) :
    s.fetchScenario id = .error (.scenarioStore fault) := by
  rw [fetchScenario, h]
  rfl

/-- A scenario that is not stored is not found. -/
theorem fetchScenario_of_none (h : s.scenarios.fetch id = .ok none) :
    s.fetchScenario id = .error (.refused (.scenarioNotFound id)) := by
  rw [fetchScenario, h]
  rfl

/-- A scenario that is stored is fetched if it has a start node. -/
theorem fetchScenario_of_some (h : s.scenarios.fetch id = .ok (some g)) :
    s.fetchScenario id =
      if g.startNode? = none then .error (.refused (.noStartNode id)) else .ok g := by
  rw [fetchScenario, h]
  cases hstart : g.startNode? <;>
    simp [Except.mapError, bind, Except.bind, hstart, throw, throwThe, MonadExceptOf.throw, pure,
      Except.pure]

/-- A scenario is fetched if it is stored and can be run. -/
theorem fetchScenario_eq_ok : s.fetchScenario id = .ok g ↔ s.Loads id g := by
  constructor
  · intro h
    rcases hfetch : s.scenarios.fetch id with fault | (_ | graph)
    · cases (fetchScenario_of_error hfetch).symm.trans h
    · cases (fetchScenario_of_none hfetch).symm.trans h
    · rw [fetchScenario_of_some hfetch] at h
      split at h
      · cases h
      · next hstart =>
        cases h
        exact ⟨hfetch, hstart⟩
  · rintro ⟨hfetch, hstart⟩
    rw [fetchScenario_of_some hfetch, if_neg hstart]

/-- A scenario is missed for the reason that is told. -/
theorem fetchScenario_eq_error : s.fetchScenario id = .error e ↔ s.Misses id e := by
  constructor
  · intro h
    rcases hfetch : s.scenarios.fetch id with fault | (_ | graph)
    · cases (fetchScenario_of_error hfetch).symm.trans h
      exact .store hfetch
    · cases (fetchScenario_of_none hfetch).symm.trans h
      exact .scenario hfetch
    · rw [fetchScenario_of_some hfetch] at h
      split at h
      · next hstart =>
        cases h
        exact .startNode hfetch hstart
      · cases h
  · intro h
    cases h with
    | store hfetch => exact fetchScenario_of_error hfetch
    | scenario hfetch => exact fetchScenario_of_none hfetch
    | startNode hfetch hstart => rw [fetchScenario_of_some hfetch, if_pos hstart]

end Fetch

/-- A check fails as its failures say. -/
theorem test_eq_error {c : Check} : s.test r c = .error e ↔ s.Fails r c e := by
  cases c with
  | devices =>
    simp only [test, List.isEmpty_iff, guard_eq_error]
    exact ⟨fun ⟨h, he⟩ => he ▸ .devices h, fun | .devices h => ⟨h, rfl⟩⟩
  | scenarios =>
    simp only [test, List.isEmpty_iff, guard_eq_error]
    exact ⟨fun ⟨h, he⟩ => he ▸ .scenarios h, fun | .scenarios h => ⟨h, rfl⟩⟩
  | repeats =>
    simp only [test, guard_eq_error]
    exact ⟨fun ⟨h, he⟩ => he ▸ .repeats h, fun | .repeats h => ⟨h, rfl⟩⟩
  | device id =>
    rw [test, checkDevice, ← ite_not, guard_eq_error]
    exact ⟨fun ⟨h, he⟩ => he ▸ .device h, fun | .device h => ⟨h, rfl⟩⟩
  | scenario id =>
    have hmap : s.test r (.scenario id) = .error e ↔ s.fetchScenario id = .error e := by
      cases h : s.fetchScenario id <;> simp [test, h, Except.map]
    rw [hmap, fetchScenario_eq_error]
    exact ⟨.scenario, fun | .scenario h => h⟩

/-- A check is passed if the request does not fail it. -/
theorem test_eq_ok {c : Check} : s.test r c = .ok () ↔ ∀ e, ¬ s.Fails r c e := by
  simp only [← test_eq_error]
  cases s.test r c <;> simp

/-! ## All checks -/

/-- A request is checked one thing after the other. -/
theorem check_eq : s.check r = (s.test r .devices >>= fun _ => s.test r .scenarios >>= fun _ =>
    s.test r .repeats >>= fun _ => r.deviceIds.forM s.checkDevice >>= fun _ =>
      r.scenarioIds.mapM s.fetchScenario) := by
  simp only [check, test]
  by_cases hdevices : r.deviceIds.isEmpty = true
  · simp [hdevices, throw, throwThe, MonadExceptOf.throw, bind, Except.bind]
  by_cases hscenarios : r.scenarioIds.isEmpty = true
  · simp [hdevices, hscenarios, throw, throwThe, MonadExceptOf.throw, bind, Except.bind]
  by_cases hrepeats : r.repeatCount = 0
  · simp [hdevices, hscenarios, hrepeats, throw, throwThe, MonadExceptOf.throw, bind, Except.bind]
  · simp [hdevices, hscenarios, hrepeats, bind, Except.bind]

/-- To check a request is to make all of its checks, one after the other. -/
theorem check_eq_tests : (s.check r).map (fun _ => ()) = r.checks.forM (s.test r) := by
  have hlists : (r.deviceIds.map Check.device ++ r.scenarioIds.map Check.scenario).forM (s.test r) =
      (r.deviceIds.forM s.checkDevice >>= fun _ =>
        (r.scenarioIds.mapM s.fetchScenario).map fun _ => ()) := by
    rw [map_mapM]
    simp only [List.forM_eq_forM, List.forM_append, List.forM_map]
    rfl
  have hall : r.checks.forM (s.test r) = (s.test r .devices >>= fun _ => s.test r .scenarios >>=
      fun _ => s.test r .repeats >>= fun _ =>
        (r.deviceIds.map Check.device ++ r.scenarioIds.map Check.scenario).forM (s.test r)) := rfl
  rw [hall, hlists, check_eq]
  cases s.test r .devices <;> cases s.test r .scenarios <;> cases s.test r .repeats <;>
    cases r.deviceIds.forM s.checkDevice <;> rfl

/-- A request is refused for the first check that it fails. -/
theorem check_eq_error : s.check r = .error e ↔ s.FirstFails r e := by
  have hmap : s.check r = .error e ↔ (s.check r).map (fun _ => ()) = .error e := by
    cases s.check r <;> simp [Except.map]
  rw [hmap, check_eq_tests, forM_eq_error, FirstFails]
  simp only [test_eq_ok, test_eq_error]

/-- A request that is as it should be is granted its scenarios. -/
theorem check_eq_ok : s.check r = .ok graphs ↔ s.Grants r graphs := by
  have hdevice : ∀ id, s.checkDevice id = .ok () ↔ id ∈ s.connected := fun id => by
    rw [checkDevice]
    split <;> simp [*]
  simp only [check_eq, seq_eq_ok, test, List.isEmpty_iff, guard_eq_ok, forM_eq_ok, hdevice,
    mapM_eq_ok, fetchScenario_eq_ok]
  constructor
  · rintro ⟨hdevices, hscenarios, hrepeats, hconnected, hloaded⟩
    exact ⟨hdevices, hscenarios, one_le_iff_ne_zero.2 hrepeats, hconnected, hloaded⟩
  · rintro ⟨hdevices, hscenarios, hrepeats, hconnected, hloaded⟩
    exact ⟨hdevices, hscenarios, one_le_iff_ne_zero.1 hrepeats, hconnected, hloaded⟩

/-! ## The checks leave the session alone -/

/-- An attempt reads the session, which tells what it comes to, and leaves it as it is. -/
def Attempt.Reads {α : Type} (a : Attempt σ α) (f : Session σ → Except SessionError α) : Prop :=
  ∀ s, a.run s = (f s, s)

section Reads

variable {α β : Type}

/-- An attempt goes on with the session as the one before it has left it. -/
theorem Attempt.run_bind (a : Attempt σ α) (b : α → Attempt σ β) (s : Session σ) :
    (a >>= b).run s = (fun p : Except SessionError α × Session σ =>
      ExceptT.bindCont b p.1 p.2) (a.run s) := rfl

/-- One attempt after the other reads the session when both do. -/
theorem Attempt.Reads.bind {a : Attempt σ α} {b : α → Attempt σ β}
    {f : Session σ → Except SessionError α} {g : α → Session σ → Except SessionError β}
    (ha : a.Reads f) (hb : ∀ x, (b x).Reads (g x)) :
    (a >>= b).Reads fun s => f s >>= fun x => g x s := by
  intro s
  rw [run_bind, ha s]
  dsimp only
  cases f s with
  | error e => rfl
  | ok x => exact hb x s

/-- A traversal reads the session when it does so for every item. -/
theorem Attempt.reads_forM {f : α → Attempt σ Unit} {g : α → Session σ → Except SessionError Unit}
    (h : ∀ x, (f x).Reads (g x)) (xs : List α) :
    Attempt.Reads (xs.forM f) fun s => xs.forM fun x => g x s := by
  induction xs with
  | nil => exact fun _ => rfl
  | cons x rest ih => exact (h x).bind fun _ => ih

/-- A traversal that collects reads the session when it does so for every item. -/
theorem Attempt.reads_mapM {f : α → Attempt σ β} {g : α → Session σ → Except SessionError β}
    (h : ∀ x, (f x).Reads (g x)) (xs : List α) :
    Attempt.Reads (xs.mapM f) fun s => xs.mapM fun x => g x s := by
  induction xs with
  | nil =>
    simp only [List.mapM_nil]
    exact fun _ => rfl
  | cons x rest ih =>
    simp only [List.mapM_cons]
    exact (h x).bind fun _ => ih.bind fun _ _ => rfl

end Reads

/-- A device is looked for without a trace. -/
theorem reads_findDevice (id : String) :
    (findDevice id : Attempt σ Unit).Reads fun s => s.checkDevice id := by
  intro s
  have hrun : (findDevice id : Attempt σ Unit).run s =
      (if id ∉ s.connected then throw (.refused (.deviceNotFound id)) else pure () :
        Attempt σ Unit).run s := rfl
  rw [hrun]
  by_cases hid : id ∈ s.connected
  · simp only [checkDevice, hid, not_true_eq_false, if_false, if_true]
    rfl
  · simp only [checkDevice, hid, not_false_eq_true, if_false, if_true]
    rfl

/-- A scenario is loaded without a trace. -/
theorem reads_loadScenario (id : String) :
    (loadScenario id : Attempt σ Graph).Reads fun s => s.fetchScenario id := by
  have hget : (get : Attempt σ (Session σ)).Reads fun s => .ok s := fun _ => rfl
  refine hget.bind (g := fun s _ => s.fetchScenario id) fun s => ?_
  rcases hfetch : s.scenarios.fetch id with fault | (_ | graph)
  · rw [fetchScenario_of_error hfetch]
    exact fun _ => rfl
  · rw [fetchScenario_of_none hfetch]
    exact fun _ => rfl
  · rw [fetchScenario_of_some hfetch]
    cases hstart : graph.startNode? <;>
      simp only [hstart, Option.isNone_none, Option.isNone_some] <;> exact fun _ => rfl

/-- A request is checked without a trace, also when a check in the middle fails. -/
theorem reads_prepare (request : Request) :
    (prepare request : Attempt σ (List Graph)).Reads fun s => s.check request := by
  intro s
  have hlists := (Attempt.reads_forM (reads_findDevice (σ := σ)) request.deviceIds).bind
    fun _ => Attempt.reads_mapM (reads_loadScenario (σ := σ)) request.scenarioIds
  change _ = (s.check request, s)
  rw [prepare, check]
  by_cases hdevices : request.deviceIds.isEmpty = true
  · simp only [hdevices]
    rfl
  by_cases hscenarios : request.scenarioIds.isEmpty = true
  · simp only [hdevices, hscenarios]
    rfl
  by_cases hrepeats : request.repeatCount = 0
  · simp only [hdevices, hscenarios, hrepeats]
    rfl
  · simp only [hdevices, hscenarios, hrepeats]
    exact hlists s

/-- A run is begun of a request that passes the checks; otherwise the session stays as it is. -/
theorem run_begin (suiteId suiteName : String) (request : Request) (s : Session σ) :
    (begin suiteId suiteName request).run s = match s.check request with
      | .ok scenarios =>
        (.ok (s.launch suiteId suiteName request scenarios).2,
          (s.launch suiteId suiteName request scenarios).1)
      | .error e => (.error e, s) := by
  rw [begin, Attempt.run_bind, reads_prepare request s]
  dsimp only
  cases s.check request <;> rfl

/-- What comes of beginning a run is decided by the checks of its request. -/
theorem outcome_begin (suiteId suiteName : String) (request : Request) (s : Session σ) :
    (begin suiteId suiteName request).outcome s =
      (s.check request).map (s.launch suiteId suiteName request) := by
  rw [Attempt.outcome, run_begin]
  cases s.check request <;> rfl

/-- A request is executed as a suite of its own. -/
theorem run_execute (request : Request) (s : Session σ) : (execute request).run s =
    (begin (s.plan.suiteId s.world.registry.runs.length) adHocName request).run s := by
  have hget : (get : Attempt σ (Session σ)).run s = (.ok s, s) := rfl
  rw [execute, Attempt.run_bind, hget]
  rfl

/-- A run of a request is begun if the request passes the checks. -/
theorem start_eq (request : Request) (s : Session σ) : s.start request = (s.check request).map
    (s.launch (s.plan.suiteId s.world.registry.runs.length) adHocName request) := by
  rw [← outcome_begin, start, Attempt.outcome, run_execute, Attempt.outcome]

/-- A suite is executed if it is stored. -/
theorem run_executeSuite (id : String) (s : Session σ) :
    (executeSuite id).run s = ExceptT.run (match s.plan.suites.fetch id with
      | .error fault => throw (.suiteStore fault)
      | .ok none => throw (.refused (.suiteNotFound id))
      | .ok (some suite) => begin suite.id suite.name (.ofSuite suite "suite") :
        Attempt σ Nat) s := rfl

/-- A stored suite is executed by the request that it stands for. -/
theorem startSuite_eq {id : String} {suite : Suite} {s : Session σ}
    (h : s.plan.suites.fetch id = .ok (some suite)) : s.startSuite id =
      (s.check (.ofSuite suite "suite")).map
        (s.launch suite.id suite.name (.ofSuite suite "suite")) := by
  rw [← outcome_begin, startSuite, Attempt.outcome, run_executeSuite, h, Attempt.outcome]

/-- What is executed by the identifier of a suite is stored. -/
theorem suite_of_startSuite {id : String} {s s' : Session σ} {n : Nat}
    (h : s.startSuite id = .ok (s', n)) : ∃ suite, s.plan.suites.fetch id = .ok (some suite) := by
  rw [startSuite, Attempt.outcome, run_executeSuite] at h
  rcases hfetch : s.plan.suites.fetch id with fault | (_ | suite)
  · rw [hfetch] at h
    cases h
  · rw [hfetch] at h
    cases h
  · exact ⟨suite, rfl⟩

/-- The scenarios of a request that is granted have start nodes. -/
theorem Grants.startNode?_ne_none (h : s.Grants r graphs) :
    ∀ g ∈ graphs, g.startNode? ≠ none := by
  have hstarts : List.Forall₂ (fun g (_ : String) => g.startNode? ≠ none ∧ True) graphs
      r.scenarioIds := (h.loaded.imp fun _ _ hloads => ⟨hloads.2, trivial⟩).flip
  exact ((List.forall₂_and_left _ _).1 hstarts).1

end Session

end DeviceSuite
