import DeviceSuite.Proofs.Run.Reasons
import DeviceSuite.Proofs.Session.Recordings

/-!
# Requests are checked first

A run is begun just when its request passes every check; otherwise the reason of the first check
that fails is told, and nothing has happened. A run that is begun has the devices and the scenarios
of its request, in the order of the request, and every scenario has a start node: no slot of it
fails for want of one.
-/

namespace DeviceSuite

/-- What a session is asked for: a run of a request, or of a stored suite. -/
inductive Wish where
  | request (request : Request)
  | suite (id : String)

namespace Session

variable {σ : Type}

/-- Begin the run that is asked for. -/
def fulfil (s : Session σ) : Wish → Except SessionError (Session σ × Nat)
  | .request request => s.start request
  | .suite id => s.startSuite id

/-- The attempt to begin the run that is asked for. -/
def attempt : Wish → Attempt σ Nat
  | .request request => execute request
  | .suite id => executeSuite id

/-- The session as the attempt to begin a run leaves it, also when it fails. -/
def afterwards (s : Session σ) (wish : Wish) : Session σ := ((attempt wish).run s).2

/-- What a wish stands for: a suite with an identifier and a name, and a request. -/
inductive Means (s : Session σ) : Wish → String → String → Request → Prop where
  | request (request : Request) : Means s (.request request)
    (s.plan.suiteId s.world.registry.runs.length) adHocName request
  | suite {id : String} {suite : Suite} : s.plan.suites.fetch id = .ok (some suite) →
    Means s (.suite id) suite.id suite.name (.ofSuite suite "suite")

/-- A session has begun a run, and nothing else has happened in it: the run is added with its
request and its handle, and so are its tasks, which are the lead and a tour of the scenarios for
each device. -/
structure Begins (s : Session σ) (suiteId suiteName : String) (request : Request)
    (graphs : List Graph) (s' : Session σ) (n : Nat) : Prop where
  number : n = s.world.registry.runs.length
  run : s'.world.registry.run? n = some (s.newRun suiteId suiteName request)
  tasks : s'.pool.strands =
    s.pool.strands ++ s.newStrands (s.newRun suiteId suiteName request) graphs
  stays : s' = { s with handles := s.handles ++ [n], pool := s'.pool }
  world : s'.world =
    { s.world with registry := s'.world.registry, crews := s'.world.crews }

/-- Whatever happens to the run with a number, none of its slots fails for want of a start node: a
result that says so, in the result of the run or in an event of a tour, repeats its last step. -/
structure NeverStartless (s : Session σ) (n : Nat) (request : Request) (moves : List Move) :
    Prop where
  kept : ∀ r, (s.performs moves).result? n = some r → ∀ d ∈ r.deviceResults,
    ∀ x ∈ d.scenarioResults, x.error = some SlotPlan.noStartText → x.Repeats
  told : ∀ place id, request.deviceIds[place]? = some id →
    ∀ m ∈ (s.minutesOfAll moves).ofTask (.tour n place id), ∀ e ∈ m.call.event?,
      ∀ x ∈ e.results, x.error = some SlotPlan.noStartText → x.Repeats

variable {s s' : Session σ} {wish : Wish} {suiteId suiteName : String} {request : Request}
  {graphs : List Graph} {n : Nat}

/-- What is asked for is the beginning of a run of the request that it stands for. -/
theorem run_attempt (h : s.Means wish suiteId suiteName request) :
    (attempt wish).run s = (begin suiteId suiteName request).run s := by
  cases h with
  | request request => exact run_execute request s
  | suite hfetch => rw [attempt, run_executeSuite, hfetch]

/-- To fulfil a wish is to check what it means and to launch it. -/
theorem fulfil_eq (h : s.Means wish suiteId suiteName request) :
    s.fulfil wish = (s.check request).map (s.launch suiteId suiteName request) := by
  cases h with
  | request request => exact start_eq request s
  | suite hfetch => exact startSuite_eq hfetch

/-- An attempt that fails leaves the session as it is, and one that does not leaves the run begun. -/
theorem afterwards_eq (h : s.Means wish suiteId suiteName request) :
    s.afterwards wish = match s.check request with
      | .ok graphs => (s.launch suiteId suiteName request graphs).1
      | .error _ => s := by
  rw [afterwards, run_attempt h, run_begin]
  cases s.check request <;> rfl

/-- A launch begins the run that it tells. -/
theorem begins_launch : s.Begins suiteId suiteName request graphs
    (s.launch suiteId suiteName request graphs).1 s.world.registry.runs.length := by
  refine ⟨rfl, run?_launch s _ _ _ _, strands_launch s _ _ _ _, rfl, ?_⟩
  rw [world_launch]

end Session

namespace Course

variable {σ : Type} (c : Course σ)

/-- All results that the tours of a run tell or leave have their reasons. -/
theorem only_reasoned_tour (place : Nat) (id : String) :
    (c.tour place id).conduct.Only (RunCall.Tells ScenarioResult.Reasoned)
      fun r => ∀ d, r = .ok d → d.Each ScenarioResult.Reasoned :=
  (c.tour place id).only_reasoned_conduct
    (Session.check_eq_ok.1 c.accepted).startNode?_ne_none

/-- The results that are told of a device have their reasons. -/
theorem reasoned_of_minutes {place : Nat} {id : String}
    (hid : c.request.deviceIds[place]? = some id) {m : Minute RunCall.Reply Role}
    (hm : m ∈ c.minutes.ofTask (.tour c.number place id)) :
    m.call.Tells ScenarioResult.Reasoned := by
  obtain ⟨strand, reply, told, outcome, -, hyields, hstart, -⟩ := c.told hid
  have hcall : m.call ∈ RunCall.begun :: told.filterMap Answer.call? :=
    call_of_mem_minutesOf (hstart.subset hm)
  rcases List.mem_cons.1 hcall with hbegun | htold
  · exact hbegun ▸ RunCall.tells_of_event? rfl
  · exact ((c.only_reasoned_tour place id).ends.of_yields hyields).1 _ htold

end Course

namespace Session

variable {σ : Type} {s s' : Session σ} {wish : Wish} {suiteId suiteName : String}
  {request : Request} {graphs : List Graph} {n : Nat}

/-- A run that was checked never says that it has no start node. -/
theorem neverStartless_launch (ho : s.Opened) (hcheck : s.check request = .ok graphs)
    {moves : List Move}
    (hallowed : (s.launch suiteId suiteName request graphs).1.allowsAll moves = true) :
    (s.launch suiteId suiteName request graphs).1.NeverStartless s.world.registry.runs.length
      request moves := by
  let c : Course σ := ⟨s, ho, suiteId, suiteName, request, graphs, hcheck, moves, hallowed⟩
  exact ⟨fun r hr d hd x hx =>
      (c.forall_deviceResults c.only_reasoned_tour hr d hd x hx).repeats,
    fun place id hid m hm e he x hx => (c.reasoned_of_minutes hid hm e he x hx).repeats⟩

/-- A run that is asked for is begun just when its request passes all checks, and otherwise the
reason of the first that fails is told, and the session stays as it is. A run that is begun has the
scenarios and the devices of its request in their order, and nothing else has happened; none of its
slots ever fails for want of a start node. -/
theorem requests_checked (h : s.Means wish suiteId suiteName request) :
    ((∃ s' n, s.fulfil wish = .ok (s', n)) ↔ ∃ graphs, s.Grants request graphs) ∧
      (∀ e, s.fulfil wish = .error e ↔ s.FirstFails request e) ∧
      (∀ e, s.fulfil wish = .error e → s.afterwards wish = s) ∧
      ∀ s' n, s.fulfil wish = .ok (s', n) → s.afterwards wish = s' ∧
        ∃ graphs, s.Grants request graphs ∧ s.Begins suiteId suiteName request graphs s' n ∧
          (s.Opened → ∀ moves, s'.allowsAll moves = true → s'.NeverStartless n request moves) := by
  have hfulfil := fulfil_eq h
  have hafter := afterwards_eq h
  have hok : ∀ {s' n}, s.fulfil wish = .ok (s', n) → ∃ graphs, s.check request = .ok graphs ∧
      s.launch suiteId suiteName request graphs = (s', n) := fun hs => by
    rw [hfulfil] at hs
    exact map_eq_ok.1 hs
  refine ⟨⟨?_, ?_⟩, fun e => ?_, fun e he => ?_, fun s' n hs => ?_⟩
  · rintro ⟨s', n, hs⟩
    obtain ⟨graphs, hcheck, -⟩ := hok hs
    exact ⟨graphs, check_eq_ok.1 hcheck⟩
  · rintro ⟨graphs, hgrants⟩
    exact ⟨_, _, hfulfil.trans (map_eq_ok.2 ⟨graphs, check_eq_ok.2 hgrants, rfl⟩)⟩
  · rw [hfulfil, ← check_eq_error]
    cases s.check request <;> simp [Except.map]
  · rw [hafter]
    cases hcheck : s.check request with
    | error _ => rfl
    | ok graphs =>
      rw [hfulfil, hcheck] at he
      cases he
  · obtain ⟨graphs, hcheck, hlaunch⟩ := hok hs
    refine ⟨by rw [hafter, hcheck]; exact congrArg Prod.fst hlaunch, graphs, check_eq_ok.1 hcheck, ?_,
      fun ho moves hallowed => ?_⟩
    · obtain ⟨rfl, rfl⟩ := Prod.mk.inj hlaunch
      exact begins_launch
    · obtain ⟨rfl, rfl⟩ := Prod.mk.inj hlaunch
      exact neverStartless_launch ho hcheck hallowed

end Session

namespace Sample

/-- A device that, told to do something, fails and says that there is no start node. -/
def parrot : Service DeviceCall.Reply Unit :=
  { service described with
    answer := fun time s c =>
      match c with
      | .perform _ => (s, some (.error (.other SlotPlan.noStartText)))
      | c => (service described).answer time s c }

/-- The session in which a scenario that taps fails, but with such a device. -/
def parroting : Session Unit := { failing with plan := { failing.plan with service := parrot } }

/-- The session with the parroting device can be opened. -/
theorem opened_parroting : parroting.Opened := by
  have h : Session.setUp parroting.plan (.given .default) = .ok parroting := rfl
  exact .setUp h

end Sample

namespace Session

/-- A request with two devices that are not connected, and a scenario that is not stored, is refused
for the first of the devices. A request for both devices that are connected is granted. -/
theorem requests_checked_sample :
    let s := Sample.session Sample.described
    let amiss : Request := .new ["d", "x", "y"] ["g", "h"]
    s.fulfil (.request amiss) = .error (.refused (.deviceNotFound "x")) ∧
      s.afterwards (.request amiss) = s ∧
      ∃ s' n graphs, s.fulfil (.request (Sample.request ["d", "e"])) = .ok (s', n) ∧
        s.Begins "s" adHocName (Sample.request ["d", "e"]) graphs s' n ∧
        s'.allowsAll [.turn 0, .turn 1] = true ∧
        s'.NeverStartless n (Sample.request ["d", "e"]) [.turn 0, .turn 1] := by
  intro s amiss
  obtain ⟨-, herror, hstays, -⟩ := requests_checked (s := s) (.request amiss)
  have hrefused : s.fulfil (.request amiss) = .error (.refused (.deviceNotFound "x")) := by
    refine (herror _).2 ⟨[.devices, .scenarios, .repeats, .device "d"], .device "x", _, rfl, ?_,
      .device (by decide)⟩
    intro b hb
    apply test_eq_ok.1
    simp only [List.mem_cons, List.not_mem_nil, or_false] at hb
    rcases hb with rfl | rfl | rfl | rfl <;> rfl
  obtain ⟨-, -, -, hall⟩ := requests_checked (s := s) (.request (Sample.request ["d", "e"]))
  obtain ⟨-, graphs, -, hbegins, hnever⟩ := hall _ _ rfl
  have hallowed : (s.launch "s" adHocName (Sample.request ["d", "e"]) [Sample.scenario]).1.allowsAll
      [.turn 0, .turn 1] = true := by decide +kernel
  exact ⟨hrefused, hstays _ hrefused, _, _, graphs, rfl, hbegins, hallowed,
    hnever (Sample.opened _) _ hallowed⟩

/-- A run is begun, and the result of its slot says that there is no start node: its device has said
so when it was told to tap. -/
theorem startless_repeated :
    ∃ s' n, Sample.parroting.Opened ∧
      Sample.parroting.fulfil (.request (Sample.request ["d"])) = .ok (s', n) ∧
      s'.allowsAll [.turn 0, .turn 1, .turn 0] = true ∧
      ((s'.performs [.turn 0, .turn 1, .turn 0]).result? n).map (fun r =>
        r.deviceResults.map fun d => d.scenarioResults.map ScenarioResult.error) =
          some [[some "scenario has no start node"]] := by
  refine ⟨_, _, Sample.opened_parroting, rfl, ?_, ?_⟩ <;> decide +kernel

end Session

end DeviceSuite
