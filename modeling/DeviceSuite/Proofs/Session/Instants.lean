import DeviceSuite.Proofs.Run.Clockwork
import DeviceSuite.Proofs.Session.Isolation
import DeviceSuite.Proofs.Session.Narrative
import DeviceSuite.Proofs.Session.Punctual

/-!
# The instants of a session

A task of a punctual session begins its calls at the instants at which it begins them when it
unfolds in time, `Session.Tracks.performs`: each of its turns begins its calls at one instant, and
neither the turns of the others nor the clock make it late.
-/

namespace DeviceSuite

namespace Session

variable {σ : Type}

/-- The calls that begin in a move. -/
def callsOfMove (s : Session σ) : Move → Calls
  | .turn i => s.callsOfTurn i
  | _ => []

/-- The calls of a task that begin in moves, each with the instant at which it begins. -/
def timesOf (l : Role) (s : Session σ) : List Move → List (Nat × RunCall)
  | [] => []
  | m :: rest =>
    (Calls.ofTask l (s.callsOfMove m)).map (fun e => (s.now, e.call)) ++
      (s.perform m).timesOf l rest

/-- The instant, if the flag of a run is raised. -/
def raised? (s : Session σ) (n : Nat) : Option Nat :=
  if s.world.isStopped n then some s.now else none

/-- The instant at which the flag of a run is first seen raised, if it is in these moves. -/
def raisedIn (n : Nat) (s : Session σ) : List Move → Option Nat
  | [] => s.raised? n
  | m :: rest => (s.raised? n).or ((s.perform m).raisedIn n rest)

variable {s : Session σ} {l : Role} {raised : Option Nat} {m : Move} {moves : List Move}
  {Q : List (Nat × RunCall) → Option RoleResult → Beat → Prop}

/-- A task unfolds as `Q` says from where it stands, at a beat that tells since when its flag is
raised. -/
structure Tracks (s : Session σ) (l : Role)
    (Q : List (Nat × RunCall) → Option RoleResult → Beat → Prop) (raised : Option Nat) : Prop where
  shows : s.world.Shows l.run ⟨s.now, raised⟩
  strand : ∃ strand, (l, strand) ∈ s.pool.strands ∧
    strand.Unfolds RunCall.pace Q ⟨s.now, raised⟩

/-- The flag of a run is raised by now, or has been for some time. -/
theorem raised_or_of_shows {b : Beat} (h : s.world.Shows l.run b)
    (hstill : (⟨s.now, raised⟩ : Beat).Still b) : b = ⟨s.now, raised.or (s.raised? l.run)⟩ := by
  rcases hstill.eq_or with rfl | ⟨hnone, rfl⟩
  · cases raised with
    | some time => rfl
    | none => simp [raised?, h.2]
  · obtain rfl : raised = none := hnone
    simp [raised?, h.2]

/-- A session shows how late it is, and whether the flag of a run is raised now. -/
theorem shows_raised? (s : Session σ) (n : Nat) : s.world.Shows n ⟨s.now, s.raised? n⟩ := by
  refine ⟨rfl, ?_⟩
  rw [raised?]
  cases s.world.isStopped n <;> rfl

/-- A flag that is seen raised has not been raised later than now. -/
theorem le_now_of_raised? {n time : Nat} (h : time ∈ s.raised? n) : time ≤ s.now := by
  rw [raised?] at h
  split at h
  · exact Nat.le_of_eq (Option.some.inj h).symm
  · cases h

/-- A flag that is seen raised before moves is the first that is seen in them. -/
@[simp] theorem raised?_or_raisedIn {n : Nat} (s : Session σ) (moves : List Move) :
    (s.raised? n).or (s.raisedIn n moves) = s.raisedIn n moves := by
  cases moves <;> simp [raisedIn, ← Option.or_assoc]

namespace Tracks

/-- A task that knows since when its flag is raised learns nothing new from looking at it. -/
theorem raised_or (h : s.Tracks l Q raised) : raised.or (s.raised? l.run) = raised :=
  congrArg Beat.raised (raised_or_of_shows h.shows (.refl _)).symm

/-- What does not take time and leaves the strand of a task where it is. -/
theorem of_holds {s' : Session σ} (h : s.Tracks l Q raised)
    (hholds : s'.world.Holds l.run ⟨s.now, raised⟩)
    (hstrands : ∀ strand, (l, strand) ∈ s.pool.strands → (l, strand) ∈ s'.pool.strands) :
    s'.Tracks l Q (raised.or (s'.raised? l.run)) := by
  obtain ⟨b, hstill, hshows⟩ := hholds
  obtain ⟨strand, hmem, hu⟩ := h.strand
  have hnow : s'.now = s.now := hshows.1.trans hstill.now_eq
  rw [← hnow] at hstill hu
  have hb := raised_or_of_shows hshows hstill
  exact ⟨hb ▸ hshows, strand, hstrands strand hmem, hb ▸ hu.still hstill⟩

/-- A task that takes its turn begins its calls at this instant. -/
theorem takeTurn_self (h : s.Tracks l Q raised) (ho : s.Opened) {i : Nat}
    {strand : Strand RunCall.Reply RoleResult} (able : s.pool.isAble s.host i = true)
    (hi : s.pool.strands[i]? = some (l, strand)) :
    (s.takeTurn i).Tracks l
      (fun calls => Q ((s.callsOfTurn i).map (fun e => (s.now, e.call)) ++ calls))
      (raised.or ((s.takeTurn i).raised? l.run)) := by
  obtain ⟨l', strand', hi', hable, hworld, hstrands, hcalls⟩ := takeTurn_spec able
  obtain ⟨rfl, rfl⟩ := Prod.mk.inj (Option.some.inj (hi'.symm.trans hi))
  obtain ⟨mine, hmem, hu⟩ := h.strand
  obtain rfl := ho.numbered.strand_inj hmem (List.mem_of_getElem? hi)
  have hmakes := Strand.Makes.weaken (ho.calls _ hmem) fun _ hc => hc.1
  obtain ⟨b, hstill, hshows, hu⟩ := (World.paces s.plan.service l').resume hable hmakes h.shows hu
  rw [Host.recorded_resume] at hshows hu
  have hshows : (s.takeTurn i).world.Shows l'.run b := hworld ▸ hshows
  have hnow : (s.takeTurn i).now = s.now := hshows.1.trans hstill.now_eq
  have hb := raised_or_of_shows hshows (hnow ▸ hstill)
  refine ⟨hb ▸ hshows, (s.host.resume l' mine s.world).2, ?_, ?_⟩
  · rw [hstrands]
    exact List.mem_iff_getElem?.2 ⟨i, by simp [(List.getElem?_eq_some_iff.1 hi).1]⟩
  · rw [← hb, hcalls]
    exact hu

/-- A turn of another task takes no time. -/
theorem takeTurn_other (h : s.Tracks l Q raised) (ho : s.Opened) {i : Nat} {l' : Role}
    {strand : Strand RunCall.Reply RoleResult} (able : s.pool.isAble s.host i = true)
    (hi : s.pool.strands[i]? = some (l', strand)) (hne : l' ≠ l) :
    (s.takeTurn i).Tracks l Q (raised.or ((s.takeTurn i).raised? l.run)) := by
  obtain ⟨_, _, hi', hable, hworld, hstrands, -⟩ := takeTurn_spec able
  obtain ⟨rfl, rfl⟩ := Prod.mk.inj (Option.some.inj (hi'.symm.trans hi))
  have hmakes := Strand.Makes.weaken (ho.calls _ (List.mem_of_getElem? hi)) fun _ hc => hc.1
  refine h.of_holds ?_ fun mine hmem => ?_
  · rw [hworld]
    exact h.shows.holds.resume s.plan.service _ hable hmakes
  · rw [hstrands]
    obtain ⟨j, hj⟩ := List.getElem?_of_mem hmem
    have hij : i ≠ j := by
      rintro rfl
      exact hne (congrArg Prod.fst (Option.some.inj (hi.symm.trans hj)))
    exact List.mem_iff_getElem?.2 ⟨j, by rw [List.getElem?_set_ne hij, hj]⟩

/-- The clock moves, and no strand is late. -/
theorem clock (h : s.Tracks l Q raised) {time : Nat} (hm : s.Punctual (.clock time)) :
    (s.perform (.clock time)).Tracks l Q
      (raised.or ((s.perform (.clock time)).raised? l.run)) := by
  obtain ⟨hstill, hle, hdues⟩ := hm
  obtain ⟨strand, hmem, hu⟩ := h.strand
  have hsame : raised.or ((s.perform (.clock time)).raised? l.run) = raised := by
    cases raised with
    | some time => rfl
    | none =>
      have hflag : (s.perform (.clock time)).world.isStopped l.run = false := h.shows.2
      simp [raised?, hflag]
  rw [hsame]
  exact ⟨⟨rfl, h.shows.2⟩, strand, hmem,
    Host.unfolds_clock (h := s.host) (b := ⟨s.now, raised⟩) h.shows (hstill _ hmem) hle
      (hdues _ hmem) hu⟩

/-- What a task begins in a move is as expected, if the move comes in time. -/
theorem perform (h : s.Tracks l Q raised) (ho : s.Opened) (hallowed : s.allows m = true)
    (hm : s.Punctual m) :
    (s.perform m).Tracks l (fun calls =>
        Q ((Calls.ofTask l (s.callsOfMove m)).map (fun e => (s.now, e.call)) ++ calls))
      (raised.or ((s.perform m).raised? l.run)) := by
  cases m with
  | turn i =>
    obtain ⟨l', strand, hi, -⟩ := takeTurn_spec hallowed
    have hlabel := label_of_mem_callsOfTurn hi hallowed
    by_cases hl : l' = l
    · subst hl
      have hown : Calls.ofTask l' (s.callsOfTurn i) = s.callsOfTurn i :=
        List.filter_eq_self.2 fun e he => by simp [hlabel e he]
      rw [callsOfMove, hown]
      exact h.takeTurn_self ho hallowed hi
    · have hnone : Calls.ofTask l (s.callsOfTurn i) = [] :=
        List.filter_eq_nil_iff.2 fun e he => by simp [hlabel e he, hl]
      rw [callsOfMove, hnone]
      exact h.takeTurn_other ho hallowed hi hl
  | clock time => exact h.clock hm
  | stop runId =>
    exact h.of_holds (h.shows.holds_of rfl fun hraised => Registry.raised_stop hraised runId)
      fun _ hmem => hmem
  | stopRun number =>
    exact h.of_holds (h.shows.holds_of rfl fun hraised =>
      Registry.raised_requestStop hraised number) fun _ hmem => hmem
  | launch suiteId suiteName request =>
    obtain ⟨scenarios, -, hperform⟩ := launch_of_allows hallowed
    obtain ⟨strand, hmem, -⟩ := h.strand
    have hlt := ho.numbered.runs _ (List.mem_map_of_mem hmem)
    have hrun := s.isStopped_launch_of_lt suiteId suiteName request scenarios hlt
    have hnow := s.now_launch suiteId suiteName request scenarios
    rw [hperform]
    refine h.of_holds (h.shows.holds_of hnow fun hraised => hrun.trans hraised) fun _ hmem => ?_
    rw [strands_launch]
    exact List.mem_append_left _ hmem
  | release number => exact h.of_holds h.shows.holds fun _ hmem => hmem
  | insertScenario g => exact h.of_holds h.shows.holds fun _ hmem => hmem
  | removeScenario id => exact h.of_holds h.shows.holds fun _ hmem => hmem
  | disconnect id => exact h.of_holds h.shows.holds fun _ hmem => hmem

/-- What a task begins in punctual moves is as expected, with the instants at which it begins it. -/
theorem performs (h : s.Tracks l Q (s.raised? l.run)) (ho : s.Opened)
    (hallowed : s.allowsAll moves = true) (hm : s.AllPunctual moves) :
    (s.performs moves).Tracks l (fun calls => Q (s.timesOf l moves ++ calls))
      (s.raisedIn l.run moves) := by
  -- On the way the flag may have been raised before the moves that are left.
  suffices hall : ∀ {s : Session σ} {Q raised}, s.Tracks l Q raised → s.Opened →
      s.allowsAll moves = true → s.AllPunctual moves →
      (s.performs moves).Tracks l (fun calls => Q (s.timesOf l moves ++ calls))
        (raised.or (s.raisedIn l.run moves)) from
    raised?_or_raisedIn s moves ▸ hall h ho hallowed hm
  clear h ho hallowed hm
  induction moves with
  | nil =>
    intro s Q raised h _ _ _
    rw [raisedIn, h.raised_or]
    exact h
  | cons m rest ih =>
    intro s Q raised h ho hallowed hm
    obtain ⟨hallowed, hrest⟩ := Bool.and_eq_true_iff.1 hallowed
    have hnext := ih (h.perform ho hallowed hm.1) (ho.perform hallowed) hrest hm.2
    rw [Option.or_assoc, raised?_or_raisedIn] at hnext
    simp only [timesOf, raisedIn, List.append_assoc, ← Option.or_assoc, h.raised_or]
    exact hnext

end Tracks

end Session

end DeviceSuite
