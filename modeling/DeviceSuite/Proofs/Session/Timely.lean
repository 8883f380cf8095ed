import DeviceSuite.Proofs.Session.Moves
import DeviceSuite.Proofs.Session.Seclusion

/-!
# Moves in their time

In a session whose moves are timely no strand is late: the clock moves only when no strand is able
to go on, and not past an instant at which one is due. The flag of a run is raised at a given
instant, if at all, and before any strand goes on there; until then the clock does not move past it.
-/

namespace DeviceSuite

/-- A move that begins no run with a device. -/
def Move.Spares (id : String) : Move → Prop
  | launch _ _ request => id ∉ request.deviceIds
  | _ => True

instance (id : String) : (m : Move) → Decidable (m.Spares id)
  | .launch _ _ request => inferInstanceAs (Decidable (id ∉ request.deviceIds))
  | .turn _ | .clock _ | .stop _ | .stopRun _ | .release _ | .insertScenario _ | .removeScenario _
  | .disconnect _ => .isTrue trivial

namespace World

variable {σ : Type} {w : World σ} {n : Nat} {stopAt : Option Nat}

/-- The flag of a run is raised from an instant on, if at all, or is about to be raised. -/
def Awaits (n : Nat) (stopAt : Option Nat) (w : World σ) : Prop :=
  w.Flagged n stopAt ∨
    stopAt = some w.now ∧ ∃ state, w.registry.run? n = some state ∧ state.stopRequested = false

/-- A flag is raised if its instant has come. -/
theorem Flagged.isStopped (h : w.Flagged n stopAt) :
    w.isStopped n = stopAt.any (· ≤ w.now) := by
  obtain ⟨state, hstate, hflag⟩ := h
  simp [World.isStopped, hstate, hflag]

namespace Awaits

/-- A flag that is awaited is that of a run. -/
theorem found (h : w.Awaits n stopAt) :
    ∃ state, w.registry.run? n = some state ∧ w.isStopped n = state.stopRequested := by
  have hread : ∀ state, w.registry.run? n = some state →
      w.isStopped n = state.stopRequested := fun state hstate => by
    simp [World.isStopped, hstate]
  rcases h with ⟨state, hstate, -⟩ | ⟨-, state, hstate, -⟩
  · exact ⟨state, hstate, hread state hstate⟩
  · exact ⟨state, hstate, hread state hstate⟩

/-- The flag that strands see is the one that is expected. -/
theorem flagged (h : w.Awaits n stopAt) (hflag : w.isStopped n = stopAt.any (· ≤ w.now)) :
    w.Flagged n stopAt := by
  obtain ⟨state, hstate, hread⟩ := h.found
  exact ⟨state, hstate, hread.symm.trans hflag⟩

/-- The flag is raised when its time has come. -/
theorem raise (h : w.Awaits n stopAt) (htime : stopAt.any (· ≤ w.now) = true) :
    (w.updateRun n RunState.requestStop).Awaits n stopAt := by
  obtain ⟨state, hstate, -⟩ := h.found
  refine .inl ⟨state.requestStop, ?_, htime.symm⟩
  simp [updateRun, Registry.update_run?, hstate]

/-- The flag of another run does not matter. -/
theorem raise_of_ne (h : w.Awaits n stopAt) {m : Nat} (hm : m ≠ n) :
    (w.updateRun m RunState.requestStop).Awaits n stopAt := by
  have hrun : (w.updateRun m RunState.requestStop).registry.run? n = w.registry.run? n := by
    simp [updateRun, Registry.update_run?, hm]
  rcases h with ⟨state, hstate, hflag⟩ | ⟨hnow, state, hstate, hflag⟩
  · exact .inl ⟨state, hrun.trans hstate, hflag⟩
  · exact .inr ⟨hnow, state, hrun.trans hstate, hflag⟩

/-- Some time passes, but not past the instant of the stop while the flag is not raised. -/
theorem later (h : w.Awaits n stopAt) {time : Nat} (hnow : w.now ≤ time)
    (hstop : w.isStopped n = false → ∀ t ∈ stopAt, time ≤ t) :
    { w with now := time }.Awaits n stopAt := by
  obtain ⟨state, hstate, hread⟩ := h.found
  cases stopAt with
  | none =>
    rcases h with ⟨state, hstate, hflag⟩ | ⟨hnow, -⟩
    · exact .inl ⟨state, hstate, hflag⟩
    · cases hnow
  | some t =>
    cases hraised : state.stopRequested with
    | true =>
      have hle : t ≤ w.now := by
        rcases h with ⟨state', hstate', hflag⟩ | ⟨-, state', hstate', hflag⟩
        · obtain rfl := Option.some.inj (hstate.symm.trans hstate')
          simpa [hraised] using hflag
        · obtain rfl := Option.some.inj (hstate.symm.trans hstate')
          rw [hraised] at hflag
          cases hflag
      exact .inl ⟨state, hstate, by simp [hraised, Nat.le_trans hle hnow]⟩
    | false =>
      have hle : time ≤ t := hstop (hread.trans hraised) t rfl
      by_cases heq : time = t
      · exact .inr ⟨by rw [heq], state, hstate, hraised⟩
      · have hlt : ¬ t ≤ time := by omega
        exact .inl ⟨state, hstate, by simp [hraised, hlt]⟩

end Awaits

/-- In its first turn the lead of a run lets the tours begin. -/
theorem begun_lead (service : Service DeviceCall.Reply σ) {crew : Crew} (run : RunState)
    (hcrew : w.crew? n = some crew) :
    ((host service).resume (.lead n) (.ready do return .lead (← RunTask.lead run)) w).1.Begun n := by
  let h := World.host service
  let w' := (w.answer service (.lead n) (.update fun s => s.withStatus .running)).1
  let w'' := (w'.answer service (.lead n) (.emit (run.opening (.ofMillis w'.now)))).1
  obtain ⟨next, hnext⟩ : ∃ next : Option RunCall.tours.Reply → RunTask RoleResult,
      h.resume (.lead n) (.ready do return .lead (← RunTask.lead run)) w =
        h.carry (.lead n) (.call .tours next) w'' := ⟨_, rfl⟩
  have hbegun : (w''.announce (.lead n) .tours).Begun n := by
    have hcrew'' : w''.crew? n = some crew := by simpa [w'', w'] using hcrew
    exact ⟨crew.start, updateCrew_crew?_self hcrew'' _, rfl⟩
  rw [hnext, Host.carry]
  split
  · next able =>
    change Begun n (h.resume (.lead n) (.waiting .tours next) (w''.announce (.lead n) .tours)).1
    exact Host.resume_keeps (h := h) (P := Begun n)
      (fun _ c hw => hw.announce (.lead n) c) (fun _ c hw => hw.accept service (.lead n) c)
      (fun _ c hw => hw.answer service (.lead n) c) (fun _ r hw => hw.finish (.lead n) r) able hbegun
  · exact hbegun

end World

namespace Session

variable {σ : Type} {s : Session σ} {n : Nat} {stopAt : Option Nat}

/-- No strand is able to go on. -/
def IsStill (s : Session σ) : Prop := ∀ e ∈ s.pool.strands, s.host.isAble s.world e.1 e.2 = false

/-- The time of a move has come, for a run that is stopped at a given instant, if at all. -/
def Timely (s : Session σ) (n : Nat) (stopAt : Option Nat) : Move → Prop
  | .turn _ => s.world.isStopped n = stopAt.any (· ≤ s.now)
  | .clock time => s.IsStill ∧ s.now ≤ time ∧
      (∀ e ∈ s.pool.strands, ∀ due ∈ e.2.due?, time ≤ due) ∧
      (s.world.isStopped n = false → ∀ t ∈ stopAt, time ≤ t)
  | .stop runId => s.world.registry.find? runId = some n → stopAt.any (· ≤ s.now) = true
  | .stopRun m => m = n → stopAt.any (· ≤ s.now) = true
  | _ => True

/-- The time of each move has come when it is made. -/
def AllTimely (s : Session σ) (n : Nat) (stopAt : Option Nat) : List Move → Prop
  | [] => True
  | m :: rest => s.Timely n stopAt m ∧ (s.perform m).AllTimely n stopAt rest

instance (s : Session σ) : Decidable s.IsStill :=
  inferInstanceAs (Decidable (∀ e ∈ s.pool.strands, s.host.isAble s.world e.1 e.2 = false))

instance (s : Session σ) (n : Nat) (stopAt : Option Nat) :
    (m : Move) → Decidable (s.Timely n stopAt m)
  | .turn _ => inferInstanceAs (Decidable (s.world.isStopped n = stopAt.any (· ≤ s.now)))
  | .clock time => inferInstanceAs (Decidable (s.IsStill ∧ s.now ≤ time ∧
      (∀ e ∈ s.pool.strands, ∀ due ∈ e.2.due?, time ≤ due) ∧
      (s.world.isStopped n = false → ∀ t ∈ stopAt, time ≤ t)))
  | .stop runId => inferInstanceAs (Decidable
      (s.world.registry.find? runId = some n → stopAt.any (· ≤ s.now) = true))
  | .stopRun m => inferInstanceAs (Decidable (m = n → stopAt.any (· ≤ s.now) = true))
  | .launch _ _ _ | .release _ | .insertScenario _ | .removeScenario _ | .disconnect _ =>
    .isTrue trivial

instance decidableAllTimely (n : Nat) (stopAt : Option Nat) :
    (s : Session σ) → (moves : List Move) → Decidable (s.AllTimely n stopAt moves)
  | _, [] => .isTrue trivial
  | s, m :: rest =>
    have := decidableAllTimely n stopAt (s.perform m) rest
    inferInstanceAs (Decidable (_ ∧ _))

/-- Moves that may be made while a device is left to one run: each in its time, and none of them
begins a run with the device. -/
structure Respects (s : Session σ) (n : Nat) (id : String) (stopAt : Option Nat)
    (moves : List Move) : Prop where
  allowed : s.allowsAll moves = true
  timely : s.AllTimely n stopAt moves
  spared : ∀ m ∈ moves, m.Spares id

/-- Moves after others come in time if those do, and then these. -/
theorem allTimely_append {moves more : List Move} :
    s.AllTimely n stopAt (moves ++ more) ↔
      s.AllTimely n stopAt moves ∧ (s.performs moves).AllTimely n stopAt more := by
  induction moves generalizing s with
  | nil => simp [AllTimely, performs]
  | cons m rest ih =>
    simp only [List.cons_append, AllTimely, ih, performs, List.foldl_cons, and_assoc]

/-- Moves after others leave a device alone if those do, and then these. -/
theorem respects_append {id : String} {moves more : List Move} :
    s.Respects n id stopAt (moves ++ more) ↔
      s.Respects n id stopAt moves ∧ (s.performs moves).Respects n id stopAt more := by
  constructor
  · rintro ⟨hallowed, htimely, hspared⟩
    obtain ⟨hallowed, hallowed'⟩ := allowsAll_append.1 hallowed
    obtain ⟨htimely, htimely'⟩ := allTimely_append.1 htimely
    obtain ⟨hspared, hspared'⟩ := List.forall_mem_append.1 hspared
    exact ⟨⟨hallowed, htimely, hspared⟩, hallowed', htimely', hspared'⟩
  · rintro ⟨⟨hallowed, htimely, hspared⟩, hallowed', htimely', hspared'⟩
    exact ⟨allowsAll_append.2 ⟨hallowed, hallowed'⟩, allTimely_append.2 ⟨htimely, htimely'⟩,
      List.forall_mem_append.2 ⟨hspared, hspared'⟩⟩

/-- No moves leave every device alone. -/
theorem respects_nil {id : String} : s.Respects n id stopAt [] :=
  ⟨rfl, trivial, fun _ h => absurd h List.not_mem_nil⟩

/-- A move that comes in time and begins no run with a device leaves it alone. -/
theorem respects_single {id : String} {m : Move} (hm : s.allows m = true)
    (ht : s.Timely n stopAt m) (hs : m.Spares id) : s.Respects n id stopAt [m] :=
  ⟨Bool.and_eq_true_iff.2 ⟨hm, rfl⟩, ⟨ht, trivial⟩, List.forall_mem_singleton.2 hs⟩

/-- What a stop under an identifier does to the flag of a run. -/
theorem awaits_stop (h : s.world.Awaits n stopAt) {runId : String}
    (ht : s.Timely n stopAt (.stop runId)) : (s.stop runId).1.world.Awaits n stopAt := by
  cases hfind : s.world.registry.find? runId with
  | none =>
    have hsame : (s.stop runId).1.world = s.world := by
      change { s.world with registry := s.world.registry.stop runId } = s.world
      rw [Registry.stop, hfind]
    exact hsame ▸ h
  | some m =>
    have hraised : (s.stop runId).1.world = s.world.updateRun m RunState.requestStop := by
      change { s.world with registry := s.world.registry.stop runId } = _
      rw [Registry.stop, hfind]
      rfl
    rw [hraised]
    by_cases hm : m = n
    · subst hm
      exact h.raise (ht hfind)
    · exact h.raise_of_ne hm

/-- The flag of a run is still awaited when a run is stopped in time. -/
theorem awaits_stopRun (h : s.world.Awaits n stopAt) {m : Nat}
    (ht : s.Timely n stopAt (.stopRun m)) : (s.stopRun m).world.Awaits n stopAt := by
  by_cases hm : m = n
  · subst hm
    exact h.raise (ht rfl)
  · exact h.raise_of_ne hm

end Session

end DeviceSuite
