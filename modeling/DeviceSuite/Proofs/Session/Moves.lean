import DeviceSuite.Proofs.Session.Numbers
import DeviceSuite.Proofs.Session.Seats
import DeviceSuite.Proofs.Session.Turns
import DeviceSuite.Proofs.Task.Minutes

/-!
# Moves

What happens in a session, as data: a session makes moves, one after the other, and minutes are
taken of the calls of its tasks. The histories of a session are the moves that it allows.
-/

namespace DeviceSuite

/-- The minutes of the calls of the tasks of all runs. -/
abbrev Minutes := List (Minute RunCall.Reply Role)

namespace Minutes

/-- The minutes of one task. -/
def ofTask (l : Role) (minutes : Minutes) : Minutes := minutes.filter fun m => m.label = l

/-- The minutes of a task in two records are those in each. -/
@[simp] theorem ofTask_append (l : Role) (minutes more : Minutes) :
    ofTask l (minutes ++ more) = ofTask l minutes ++ ofTask l more :=
  List.filter_append ..

/-- If all minutes are of a task, they are its minutes. -/
theorem ofTask_of_forall {l : Role} {minutes : Minutes} (h : ∀ m ∈ minutes, m.label = l) :
    ofTask l minutes = minutes :=
  List.filter_eq_self.2 fun m hm => by simp [h m hm]

/-- If no minute is of a task, it has none. -/
theorem ofTask_eq_nil {l : Role} {minutes : Minutes} (h : ∀ m ∈ minutes, m.label ≠ l) :
    ofTask l minutes = [] :=
  List.filter_eq_nil_iff.2 fun m hm => by simp [h m hm]

end Minutes

/-- Something that may happen in a session. -/
inductive Move where
  | turn (i : Nat)
  | clock (time : Nat)
  | stop (runId : String)
  | stopRun (number : Nat)
  | launch (suiteId suiteName : String) (request : Request)
  | release (number : Nat)
  | insertScenario (g : Graph)
  | removeScenario (id : String)
  | disconnect (id : String)

namespace Session

variable {σ : Type}

/-- Whether a session allows a move: a strand may take its turn when it is able, and a run is
launched for a request that is accepted. -/
def allows (s : Session σ) : Move → Bool
  | .turn i => s.pool.isAble s.host i
  | .launch _ _ request => (s.check request).isOk
  | _ => true

/-- Make a move. -/
def perform (s : Session σ) : Move → Session σ
  | .turn i => s.takeTurn i
  | .clock time => s.change fun w => { w with now := time }
  | .stop runId => (s.stop runId).1
  | .stopRun number => s.stopRun number
  | .launch suiteId suiteName request =>
    match s.check request with
    | .ok scenarios => (s.launch suiteId suiteName request scenarios).1
    | .error _ => s
  | .release number => s.release number
  | .insertScenario g => s.insertScenario g
  | .removeScenario id => (s.removeScenario id).1
  | .disconnect id => (s.disconnect id).1

/-- The minutes of a move. -/
def minutesOf (s : Session σ) : Move → Minutes
  | .turn i =>
    match s.pool.strands[i]? with
    | none => []
    | some (l, strand) => s.host.minutesOf l strand s.world
  | _ => []

/-- Make moves, one after the other. -/
def performs (s : Session σ) (moves : List Move) : Session σ := moves.foldl perform s

/-- Whether a session allows moves, one after the other. -/
def allowsAll (s : Session σ) : List Move → Bool
  | [] => true
  | m :: rest => s.allows m && (s.perform m).allowsAll rest

/-- The minutes of moves. -/
def minutesOfAll (s : Session σ) : List Move → Minutes
  | [] => []
  | m :: rest => s.minutesOf m ++ (s.perform m).minutesOfAll rest

variable {s s' : Session σ} {calls : Calls} {moves : List Move} {m : Move}

/-- To make moves after others is to make all of them. -/
theorem performs_append (s : Session σ) (moves more : List Move) :
    s.performs (moves ++ more) = (s.performs moves).performs more :=
  List.foldl_append

/-- Moves after others may all be made if those may, and then these. -/
theorem allowsAll_append {more : List Move} :
    s.allowsAll (moves ++ more) = true ↔
      s.allowsAll moves = true ∧ (s.performs moves).allowsAll more = true := by
  induction moves generalizing s with
  | nil => simp [allowsAll, performs]
  | cons m rest ih =>
    simp only [List.cons_append, allowsAll, Bool.and_eq_true, ih, performs, List.foldl_cons,
      and_assoc]

/-- A request of which a run may be launched has been checked. -/
theorem launch_of_allows {suiteId suiteName : String} {request : Request}
    (h : s.allows (.launch suiteId suiteName request) = true) :
    ∃ scenarios, s.check request = .ok scenarios ∧
      s.perform (.launch suiteId suiteName request) =
        (s.launch suiteId suiteName request scenarios).1 := by
  rw [allows] at h
  cases hcheck : s.check request with
  | error e =>
    rw [hcheck] at h
    cases h
  | ok scenarios => exact ⟨scenarios, rfl, by rw [perform, hcheck]⟩

/-- A move is what happens next. -/
theorem next_of_allows (h : s.allows m = true) : ∃ calls, Next s calls (s.perform m) := by
  cases m with
  | turn i => exact ⟨_, .turn h⟩
  | launch suiteId suiteName request =>
    obtain ⟨scenarios, hcheck, hperform⟩ := launch_of_allows h
    exact ⟨[], hperform ▸ .launch suiteId suiteName hcheck⟩
  | clock time => exact ⟨[], .clock time⟩
  | stop runId => exact ⟨[], .stop runId⟩
  | stopRun number => exact ⟨[], .stopRun number⟩
  | release number => exact ⟨[], .release number⟩
  | insertScenario g => exact ⟨[], .insertScenario g⟩
  | removeScenario id => exact ⟨[], .removeScenario id⟩
  | disconnect id => exact ⟨[], .disconnect id⟩

/-- No move changes the plan. -/
theorem plan_perform (h : s.allows m = true) : (s.perform m).plan = s.plan := by
  obtain ⟨calls, hnext⟩ := next_of_allows h
  exact hnext.plan_eq

/-- A session that was opened still is after a move. -/
theorem Opened.perform (ho : s.Opened) (h : s.allows m = true) : (s.perform m).Opened := by
  obtain ⟨calls, hnext⟩ := next_of_allows h
  exact ho.next hnext

/-- A session that was opened still is after any moves. -/
theorem Opened.performs (ho : s.Opened) (h : s.allowsAll moves = true) :
    (s.performs moves).Opened := by
  induction moves generalizing s with
  | nil => exact ho
  | cons m rest ih =>
    obtain ⟨hm, hrest⟩ := Bool.and_eq_true_iff.1 h
    exact ih (ho.perform hm) hrest

/-- What happens next is a move. -/
theorem Next.move (h : Next s calls s') : ∃ m, s.allows m = true ∧ s.perform m = s' := by
  cases h with
  | @turn i able => exact ⟨.turn i, able, rfl⟩
  | clock time => exact ⟨.clock time, rfl, rfl⟩
  | stop runId => exact ⟨.stop runId, rfl, rfl⟩
  | stopRun number => exact ⟨.stopRun number, rfl, rfl⟩
  | @launch request scenarios suiteId suiteName accepted =>
    refine ⟨.launch suiteId suiteName request, ?_, ?_⟩
    · simp [allows, accepted, Except.isOk, Except.toBool]
    · simp [perform, accepted]
  | release number => exact ⟨.release number, rfl, rfl⟩
  | insertScenario g => exact ⟨.insertScenario g, rfl, rfl⟩
  | removeScenario id => exact ⟨.removeScenario id, rfl, rfl⟩
  | disconnect id => exact ⟨.disconnect id, rfl, rfl⟩

/-- Moves that are allowed make a history. -/
theorem history_of_allowsAll (h : s.allowsAll moves = true) :
    ∃ calls, History s calls (s.performs moves) := by
  induction moves generalizing s with
  | nil => exact ⟨[], .refl s⟩
  | cons m rest ih =>
    obtain ⟨hm, hrest⟩ := Bool.and_eq_true_iff.1 h
    obtain ⟨calls, hnext⟩ := next_of_allows hm
    obtain ⟨more, hhistory⟩ := ih hrest
    exact ⟨calls ++ more, hnext.history.trans hhistory⟩

/-- Every history is made of moves. -/
theorem History.exists_moves (h : History s calls s') :
    ∃ moves, s.allowsAll moves = true ∧ s.performs moves = s' := by
  induction h with
  | refl => exact ⟨[], rfl, rfl⟩
  | step _ hnext ih =>
    obtain ⟨moves, hallowed, rfl⟩ := ih
    obtain ⟨m, hm, rfl⟩ := hnext.move
    refine ⟨moves ++ [m], allowsAll_append.2 ⟨hallowed, ?_⟩, performs_append _ _ _⟩
    simp [allowsAll, hm]

/-- What holds of a session without minutes, and is kept by each move with its minutes, holds after
all moves. -/
theorem performs_keeps {P : Session σ → Minutes → Prop} (start : P s [])
    (next : ∀ {s minutes m}, P s minutes → s.allows m = true →
      P (s.perform m) (minutes ++ s.minutesOf m)) (h : s.allowsAll moves = true) :
    P (s.performs moves) (s.minutesOfAll moves) := by
  suffices hall : ∀ {s minutes}, P s minutes → s.allowsAll moves = true →
      P (s.performs moves) (minutes ++ s.minutesOfAll moves) from hall start h
  clear start h
  induction moves with
  | nil => exact fun hP _ => by simpa [minutesOfAll, performs] using hP
  | cons m rest ih =>
    intro s minutes hP h
    obtain ⟨hm, hrest⟩ := Bool.and_eq_true_iff.1 h
    rw [minutesOfAll, ← List.append_assoc]
    exact ih (next hP hm) hrest

/-- What a turn does to its strand, and the minutes of it. -/
theorem minutesOf_turn {i : Nat} {l : Role} {strand : Strand RunCall.Reply RoleResult}
    (hi : s.pool.strands[i]? = some (l, strand)) :
    s.minutesOf (.turn i) = s.host.minutesOf l strand s.world := by
  rw [minutesOf, hi]

/-- What a move does: a strand takes its turn, or the strands of a run that begins are added. -/
inductive Moved (s s' : Session σ) (minutes : Minutes) : Prop where
  | turn {i : Nat} {l : Role} {strand : Strand RunCall.Reply RoleResult}
    (able : s.pool.isAble s.host i = true) (turn : s' = s.takeTurn i)
    (found : s.pool.strands[i]? = some (l, strand)) (goes : s.host.isAble s.world l strand = true)
    (world : s'.world = (s.host.resume l strand s.world).1)
    (strands : s'.pool.strands =
      s.pool.strands.set i (l, (s.host.resume l strand s.world).2))
    (minutes : minutes = s.host.minutesOf l strand s.world)
  | aside (more : List (Role × Strand RunCall.Reply RoleResult)) (added : List Crew)
    (strands : s'.pool.strands = s.pool.strands ++ more)
    (new : ∀ e ∈ more, e.1.run = s.world.registry.runs.length ∧ e.2.result? = none)
    (runs : s.world.registry.runs.length ≤ s'.world.registry.runs.length)
    (crews : s'.world.crews = s.world.crews ++ added) (blank : ∀ crew ∈ added, crew.reports = [])
    (desk : s'.world.desk = s.world.desk) (minutes : minutes = [])

/-- A move that leaves the strands and the crews alone. -/
theorem moved_of_still {s' : Session σ} (strands : s'.pool.strands = s.pool.strands)
    (runs : s'.world.registry.runs.length = s.world.registry.runs.length)
    (crews : s'.world.crews = s.world.crews) (desk : s'.world.desk = s.world.desk) :
    s.Moved s' [] :=
  .aside [] [] (by rw [strands, List.append_nil]) (by simp) (Nat.le_of_eq runs.symm)
    (by rw [crews, List.append_nil]) (by simp) desk rfl

/-- A move that may be made comes to what is written in its minutes. -/
theorem moved_of_allows (h : s.allows m = true) : s.Moved (s.perform m) (s.minutesOf m) := by
  cases m with
  | turn i =>
    obtain ⟨l, strand, hi, able, hworld, hstrands, -⟩ := takeTurn_spec h
    exact .turn h rfl hi able hworld hstrands (minutesOf_turn hi)
  | launch suiteId suiteName request =>
    obtain ⟨scenarios, -, hperform⟩ := launch_of_allows h
    rw [hperform]
    refine .aside _ [.new request.deviceIds.length] (s.strands_launch _ _ _ _)
      (fun e he => ⟨newStrands_run scenarios he, ?_⟩)
      (by simp [runs_length_launch]) (by rw [world_launch]) (by simp [Crew.new])
      (by rw [world_launch]) rfl
    obtain rfl | ⟨place, id, -, rfl⟩ := mem_newStrands scenarios he <;> rfl
  | clock time => exact moved_of_still rfl rfl rfl rfl
  | stop runId => exact moved_of_still rfl (Registry.stop_runs_length _ runId) rfl rfl
  | stopRun number => exact moved_of_still rfl (Registry.update_runs_length _ number _) rfl rfl
  | release number => exact moved_of_still rfl rfl rfl rfl
  | insertScenario g => exact moved_of_still rfl rfl rfl rfl
  | removeScenario id => exact moved_of_still rfl rfl rfl rfl
  | disconnect id => exact moved_of_still rfl rfl rfl rfl

end Session

end DeviceSuite
