import DeviceSuite.Proofs.Task.Polling
import DeviceSuite.Task.Script
import Mathlib.Algebra.BigOperators.Group.Finset.Basic
import Mathlib.Algebra.Order.BigOperators.Group.Finset

/-!
# The cadence of polling

Each call of a polled probe begins an interval after the one before it, or at the end of that one
if it takes longer. Calls are made until one of them finds something or fails, or until the next one
would begin when the time is over. So when they are made, and how the polling ends, is told by what
the calls come to and how long they take; a stop may only end the polling before that.
-/

namespace DeviceSuite

variable {ε α : Type}

/-- A polled probe: what its calls come to, in their order from number zero on, and when the polling
begins. -/
structure PolledProbe (ε α : Type) where
  policy : PollPolicy
  script : Nat → ScriptEntry ε (Option α)
  start : Nat

namespace PolledProbe

variable (v : PolledProbe ε α)

/-- The polling; `stopped` is the error that tells of the stop flag. -/
def task (stopped : ε) : Task (fun _ : Unit => Except ε (Option α)) (Except ε (PollOutcome α)) :=
  Task.pollUntil v.policy stopped (Task.ask ())

/-- The script as a service, which knows the number of the next entry. -/
def service : Service (fun _ : Unit => Except ε (Option α)) Nat where
  accept _ next _ := ⟨next, (v.script next).latency, []⟩
  answer _ next _ := (next + 1, some (v.script next).outcome)

/-- The moment at which the polling begins. -/
def moment (stopAt : Option Nat) : Moment Nat := ⟨v.start, stopAt, 0⟩

/-- How long the polling may go on. -/
def timeout : Nat := v.policy.timeoutMs.toNat

/-- How long after the beginning of the polling a call begins that comes after all earlier ones. -/
def begins (i : Nat) : Nat :=
  ∑ j ∈ Finset.range i, max v.policy.intervalMs.toNat (v.script j).latency

/-- How long after the beginning of the polling that call ends. -/
def ends (i : Nat) : Nat := v.begins i + (v.script i).latency

/-- A call is made, unless a stop comes: the time is not over, and no earlier call has found
something or failed. -/
def Due (i : Nat) : Prop := v.begins i < v.timeout ∧ ∀ j < i, (v.script j).outcome = .ok none

/-- A call as it is made. -/
def called (i : Nat) : Exchange (fun _ : Unit => Except ε (Option α)) :=
  ⟨(), v.start + v.begins i, v.start + v.ends i, some (v.script i).outcome⟩

/-- The polling ends by itself after so many calls, with this result after this time. -/
inductive Concludes (v : PolledProbe ε α) : Nat → Except ε (PollOutcome α) → Nat → Prop where
  | found {k : Nat} {a : α} : v.Due k → (v.script k).outcome = .ok (some a) →
    Concludes v (k + 1) (.ok ⟨true, some a, v.ends k, k + 1⟩) (v.ends k)
  | failed {k : Nat} {e : ε} : v.Due k → (v.script k).outcome = .error e →
    Concludes v (k + 1) (.error e) (v.ends k)
  | late {n : Nat} : v.timeout ≤ v.begins n →
    (∀ j < n, v.Due j ∧ (v.script j).outcome = .ok none) →
    Concludes v n (.ok ⟨false, none, v.begins n, n⟩) (v.begins n)

/-- The polling ends after so many calls at some instant: by itself, by the stop, or because the
next call cannot be counted. -/
inductive Ends (v : PolledProbe ε α) (stopped : ε) (stopAt : Option Nat) (n : Nat) :
    Option (Except ε (PollOutcome α)) → Nat → Prop where
  | concluded {r : Except ε (PollOutcome α)} {time : Nat} : v.Concludes n r time →
    Ends v stopped stopAt n (some r) (v.start + time)
  | stopped {stop now : Nat} : stop ∈ stopAt → stop ≤ now →
    Ends v stopped stopAt n (some (.error stopped)) now
  | uncounted {now : Nat} : v.Due Task.maxPolls → Ends v stopped stopAt n none now

/-- From one call on, the calls are made that are due, until the polling ends after so many. -/
structure Course (v : PolledProbe ε α) (stopped : ε) (stopAt : Option Nat) (i n : Nat)
    (log : List (Exchange fun _ : Unit => Except ε (Option α)))
    (r : Option (Except ε (PollOutcome α))) (now : Nat) : Prop where
  le : i ≤ n
  calls : log = (List.range' i (n - i)).map v.called
  due : ∀ j < n, v.Due j
  ends : v.Ends stopped stopAt n r now

variable {v} {i j n n' time time' : Nat} {r r' : Except ε (PollOutcome α)}

/-- A call begins an interval after the one before it, or when that has ended. -/
theorem begins_succ (v : PolledProbe ε α) (i : Nat) :
    v.begins (i + 1) = v.begins i + max v.policy.intervalMs.toNat (v.script i).latency :=
  Finset.sum_range_succ ..

/-- Later calls do not begin earlier. -/
theorem begins_mono (v : PolledProbe ε α) : Monotone v.begins :=
  monotone_nat_of_le_succ fun i => v.begins_succ i ▸ Nat.le_add_right _ _

/-- Before a call that is due the earlier ones are due. -/
theorem Due.earlier (h : v.Due i) (hj : j ≤ i) : v.Due j :=
  ⟨(v.begins_mono hj).trans_lt h.1, fun l hl => h.2 l (hl.trans_le hj)⟩

/-- The calls that are made are those that are due. -/
theorem Concludes.lt_iff_due (h : v.Concludes n r time) : i < n ↔ v.Due i := by
  have hlast : (∀ j < n, v.Due j) → ¬ v.Due n → (i < n ↔ v.Due i) := fun hall hnone =>
    ⟨hall i, fun hi => Nat.lt_of_not_le fun hn => hnone (hi.earlier hn)⟩
  cases h with
  | @found k a hdue houtcome =>
    refine hlast (fun j hj => hdue.earlier (Nat.le_of_lt_succ hj)) fun h => ?_
    cases houtcome.symm.trans (h.2 k (Nat.lt_succ_self k))
  | @failed k e hdue houtcome =>
    refine hlast (fun j hj => hdue.earlier (Nat.le_of_lt_succ hj)) fun h => ?_
    cases houtcome.symm.trans (h.2 k (Nat.lt_succ_self k))
  | late hover hnone =>
    exact hlast (fun j hj => (hnone j hj).1) fun h => absurd h.1 (Nat.not_lt.2 hover)

/-- Polling ends by itself in one way only. -/
theorem Concludes.unique (h : v.Concludes n r time) (h' : v.Concludes n' r' time') :
    n = n' ∧ r = r' ∧ time = time' := by
  have hle : n ≤ n' :=
    Nat.not_lt.1 fun hlt => Nat.lt_irrefl n' (h'.lt_iff_due.2 (h.lt_iff_due.1 hlt))
  have hle' : n' ≤ n :=
    Nat.not_lt.1 fun hlt => Nat.lt_irrefl n (h.lt_iff_due.2 (h'.lt_iff_due.1 hlt))
  obtain rfl := Nat.le_antisymm hle hle'
  refine ⟨rfl, ?_⟩
  cases h with
  | found hdue houtcome =>
    cases h' with
    | found _ houtcome' =>
      cases houtcome.symm.trans houtcome'
      exact ⟨rfl, rfl⟩
    | failed _ houtcome' => cases houtcome.symm.trans houtcome'
    | late _ hnone => cases houtcome.symm.trans (hnone _ (Nat.lt_succ_self _)).2
  | failed hdue houtcome =>
    cases h' with
    | found _ houtcome' => cases houtcome.symm.trans houtcome'
    | failed _ houtcome' =>
      cases houtcome.symm.trans houtcome'
      exact ⟨rfl, rfl⟩
    | late _ hnone => cases houtcome.symm.trans (hnone _ (Nat.lt_succ_self _)).2
  | late _ hnone =>
    cases h' with
    | found _ houtcome' => cases houtcome'.symm.trans (hnone _ (Nat.lt_succ_self _)).2
    | failed _ houtcome' => cases houtcome'.symm.trans (hnone _ (Nat.lt_succ_self _)).2
    | late => exact ⟨rfl, rfl⟩

/-! ### The course of the calls -/

/-- The moment at which a call begins that comes after all earlier ones. -/
def momentOf (v : PolledProbe ε α) (stopAt : Option Nat) (i : Nat) : Moment Nat :=
  ⟨v.start + v.begins i, stopAt, i⟩

/-- To ask at the moment of a call is to be told what the script says of it. -/
theorem runAlone_ask (v : PolledProbe ε α) (stopAt : Option Nat) (i : Nat) :
    (Task.ask ()).runAlone v.service (v.momentOf stopAt i) =
      (some (v.script i).outcome, ⟨v.start + v.ends i, stopAt, i + 1⟩) := by
  rw [ends, ← Nat.add_assoc]
  rfl

/-- To ask at the moment of a call is to make that call. -/
theorem exchanges_ask (v : PolledProbe ε α) (stopAt : Option Nat) (i : Nat) :
    (Task.ask ()).exchanges v.service (v.momentOf stopAt i) = [v.called i] := by
  rw [called, ends, ← Nat.add_assoc]
  rfl

/-- How long the polling has gone on. -/
theorem waited_momentOf (v : PolledProbe ε α) (stopAt : Option Nat) (i : Nat) :
    (v.momentOf stopAt i).now - v.start = v.begins i :=
  Nat.add_sub_cancel_left _ _

/-- What a call comes to is told by the script. -/
theorem due_of_polled {stopAt : Option Nat} {m : Moment Nat}
    {outcome : Except ε (Option α)} (hearlier : ∀ j < i, (v.script j).outcome = .ok none)
    (hpoll : PollDue v.policy v.start i (v.momentOf stopAt i))
    (hprobe : (Task.ask ()).runAlone v.service (v.momentOf stopAt i) = (some outcome, m)) :
    v.Due i ∧ (v.script i).outcome = outcome ∧ m = ⟨v.start + v.ends i, stopAt, i + 1⟩ := by
  rw [runAlone_ask, Prod.mk.injEq, Option.some_inj] at hprobe
  have hearly : v.begins i < v.timeout := v.waited_momentOf stopAt i ▸ hpoll.early
  exact ⟨⟨hearly, hearlier⟩, hprobe.1, hprobe.2.symm⟩

/-- After a call that has found nothing the next one begins when the interval is over. -/
theorem momentOf_succ {stopAt : Option Nat} {m : Moment Nat}
    (h : Moment.rest ⟨v.start + v.ends i, stopAt, i + 1⟩
      (v.policy.intervalMs.toNat - (v.start + v.ends i - (v.start + v.begins i))) = (true, m)) :
    m = v.momentOf stopAt (i + 1) := by
  have hnext : v.start + v.ends i +
      (v.policy.intervalMs.toNat - (v.start + v.ends i - (v.start + v.begins i))) =
      v.start + v.begins (i + 1) := by
    rw [begins_succ, ends]
    omega
  rw [Moment.eq_of_rest_true h, momentOf]
  exact congrArg (Moment.mk · stopAt (i + 1)) hnext

section

variable {stopped : ε} {stopAt : Option Nat} {m m' : Moment Nat} {now : Nat}
  {log : List (Exchange fun _ : Unit => Except ε (Option α))}
  {r : Option (Except ε (PollOutcome α))}

/-- Polling that can count its calls ends by itself or by the stop. -/
theorem Ends.of_counted (h : v.Ends stopped stopAt n r now) (hcount : ¬ v.Due Task.maxPolls) :
    (∃ r' time, v.Concludes n r' time ∧ r = some r' ∧ now = v.start + time) ∨
      r = some (.error stopped) ∧ ∃ stop ∈ stopAt, stop ≤ now := by
  cases h with
  | concluded h => exact .inl ⟨_, _, h, rfl, rfl⟩
  | stopped hmem hle => exact .inr ⟨rfl, _, hmem, hle⟩
  | uncounted hdue => exact absurd hdue hcount

/-- No further call is made. -/
theorem Course.nil (hdue : ∀ j < i, v.Due j) (h : v.Ends stopped stopAt i r now) :
    v.Course stopped stopAt i i [] r now where
  le := le_rfl
  calls := by rw [Nat.sub_self]; rfl
  due := hdue
  ends := h

/-- The last call is made. -/
theorem Course.single (hdue : v.Due i) (h : v.Ends stopped stopAt (i + 1) r now) :
    v.Course stopped stopAt i (i + 1) [v.called i] r now where
  le := Nat.le_succ i
  calls := by rw [Nat.add_sub_cancel_left]; rfl
  due _ hj := hdue.earlier (Nat.le_of_lt_succ hj)
  ends := h

/-- A call is made, and then the others. -/
theorem Course.cons (h : v.Course stopped stopAt (i + 1) n log r now) :
    v.Course stopped stopAt i n ([v.called i] ++ log) r now where
  le := (Nat.le_succ i).trans h.le
  calls := by
    have hlen : n - i = n - (i + 1) + 1 := by have := h.le; omega
    rw [hlen, List.range'_succ, List.map_cons, ← h.calls]
    rfl
  due := h.due
  ends := h.ends

/-- Polling that has come to a call makes its further calls as they are due. -/
theorem course_of_polls
    (h : Polls v.service v.policy stopped (Task.ask ()) v.start i m log r m')
    (hm : m = v.momentOf stopAt i)
    (hearlier : ∀ j < i, v.Due j ∧ (v.script j).outcome = .ok none) :
    ∃ n, v.Course stopped stopAt i n log r m'.now := by
  have hended (j : Nat) : v.start + v.ends j - v.start = v.ends j := Nat.add_sub_cancel_left _ _
  have hflag {n : Nat} {m : Moment Nat} (hat : m.stopAt = stopAt) (hstop : m.isStopped = true) :
      v.Ends stopped stopAt n (some (.error stopped)) m.now := by
    obtain ⟨stop, hmem, hle⟩ := Moment.isStopped_iff.1 hstop
    exact .stopped (hat ▸ hmem) hle
  induction h with
  | late hover =>
    subst hm
    rw [waited_momentOf] at hover ⊢
    exact ⟨_, .nil (fun j hj => (hearlier j hj).1) (.concluded (.late hover hearlier))⟩
  | halted _ hstop =>
    subst hm
    exact ⟨_, .nil (fun j hj => (hearlier j hj).1) (hflag rfl hstop)⟩
  | uncounted hwait _ =>
    subst hm
    rw [waited_momentOf] at hwait
    have hdue : v.Due Task.maxPolls := ⟨hwait, fun j hj => (hearlier j hj).2⟩
    exact ⟨_, .nil (fun j hj => (hearlier j hj).1) (.uncounted hdue)⟩
  | crashed _ hprobe =>
    subst hm
    rw [runAlone_ask] at hprobe
    cases hprobe
  | failed hpoll hprobe =>
    subst hm
    obtain ⟨hdue, houtcome, rfl⟩ := due_of_polled (fun j hj => (hearlier j hj).2) hpoll hprobe
    rw [exchanges_ask]
    exact ⟨_, .single hdue (.concluded (.failed hdue houtcome))⟩
  | found hpoll hprobe =>
    subst hm
    obtain ⟨hdue, houtcome, rfl⟩ := due_of_polled (fun j hj => (hearlier j hj).2) hpoll hprobe
    rw [exchanges_ask, hended]
    exact ⟨_, .single hdue (.concluded (.found hdue houtcome))⟩
  | broken hpoll hprobe hrest =>
    subst hm
    obtain ⟨hdue, -, rfl⟩ := due_of_polled (fun j hj => (hearlier j hj).2) hpoll hprobe
    obtain ⟨-, hat, hstop⟩ := Moment.of_rest_false hrest
    rw [exchanges_ask]
    exact ⟨_, .single hdue (hflag hat hstop)⟩
  | @again i _ _ _ _ _ _ hpoll hprobe hrest _ ih =>
    subst hm
    obtain ⟨hdue, houtcome, rfl⟩ := due_of_polled (fun j hj => (hearlier j hj).2) hpoll hprobe
    have hnext : ∀ j < i + 1, v.Due j ∧ (v.script j).outcome = .ok none := by
      intro j hj
      rcases Nat.lt_succ_iff_lt_or_eq.1 hj with hj | rfl
      · exact hearlier j hj
      · exact ⟨hdue, houtcome⟩
    obtain ⟨n, hcourse⟩ := ih (momentOf_succ hrest) hnext
    rw [exchanges_ask]
    exact ⟨n, hcourse.cons⟩

/-- From its beginning on, polling makes the calls that are due. -/
theorem course (v : PolledProbe ε α) (stopped : ε) (stopAt : Option Nat) :
    ∃ n, v.Course stopped stopAt 0 n ((v.task stopped).exchanges v.service (v.moment stopAt))
      ((v.task stopped).runAlone v.service (v.moment stopAt)).1
      ((v.task stopped).runAlone v.service (v.moment stopAt)).2.now :=
  have hgoes : (v.task stopped).Goes v.service (v.moment stopAt)
      (Polls v.service v.policy stopped (Task.ask ()) v.start 0 (v.moment stopAt)) :=
    Task.goes_pollUntil
  course_of_polls hgoes rfl fun _ hj => absurd hj (Nat.not_lt_zero _)

end

/-- Polling keeps to its schedule: it makes so many calls, and without a stop it ends with this
result after this time. -/
structure Kept (v : PolledProbe ε α) (stopped : ε) (n : Nat) (r : Except ε (PollOutcome α))
    (time : Nat) : Prop where
  /-- A call is made when it is due and only then. -/
  due : ∀ i, i < n ↔ v.Due i
  /-- Each of them is made when it should be. -/
  calls : (v.task stopped).exchanges v.service (v.moment none) = (List.range n).map v.called
  result : ((v.task stopped).runAlone v.service (v.moment none)).1 = some r
  ended : ((v.task stopped).runAlone v.service (v.moment none)).2.now = v.start + time
  /-- What a call finds is found, however late it comes. -/
  found : ∀ k a, v.Due k → (v.script k).outcome = .ok (some a) →
    r = .ok ⟨true, some a, v.ends k, k + 1⟩ ∧ time = v.ends k
  /-- A call that fails ends the polling with its error. -/
  failed : ∀ k e, v.Due k → (v.script k).outcome = .error e → r = .error e ∧ time = v.ends k
  /-- When no call finds anything or fails, the polling ends in vain as soon as the next call would
  begin when the time is over. -/
  vain : (∀ k, v.Due k → (v.script k).outcome = .ok none) →
    r = .ok ⟨false, none, v.begins n, n⟩ ∧ time = v.begins n ∧
    (∀ i, i < n ↔ v.begins i < v.timeout) ∧ v.timeout ≤ v.begins n ∧
    (0 < n → v.begins n < v.timeout + max v.policy.intervalMs.toNat (v.script (n - 1)).latency) ∧
    (n = 0 ↔ v.timeout = 0)
  /-- A stop can only end the polling before that. -/
  halted : ∀ stop,
    (v.task stopped).exchanges v.service (v.moment (some stop)) <+: (List.range n).map v.called ∧
    let ended := (v.task stopped).runAlone v.service (v.moment (some stop))
    ended.1 = some r ∧ ended.2.now = v.start + time ∨
      ended.1 = some (.error stopped) ∧ stop ≤ ended.2.now

/-- Polling in vain ends with the first call that would begin too late. -/
theorem Concludes.vain (h : v.Concludes n r time)
    (hnone : ∀ k, v.Due k → (v.script k).outcome = .ok none) :
    r = .ok ⟨false, none, v.begins n, n⟩ ∧ time = v.begins n ∧
    (∀ i, i < n ↔ v.begins i < v.timeout) ∧ v.timeout ≤ v.begins n ∧
    (0 < n → v.begins n < v.timeout + max v.policy.intervalMs.toNat (v.script (n - 1)).latency) ∧
    (n = 0 ↔ v.timeout = 0) := by
  cases h with
  | found hdue houtcome => cases houtcome.symm.trans (hnone _ hdue)
  | failed hdue houtcome => cases houtcome.symm.trans (hnone _ hdue)
  | late hover hall =>
    have hlt : ∀ i, i < n ↔ v.begins i < v.timeout := fun i =>
      ⟨fun hi => (hall i hi).1.1,
        fun hi => Nat.lt_of_not_le fun hle => Nat.not_lt.2 hover ((v.begins_mono hle).trans_lt hi)⟩
    refine ⟨rfl, rfl, hlt, hover, fun hn => ?_, ?_⟩
    · obtain ⟨k, rfl⟩ := Nat.exists_eq_add_one.2 hn
      rw [begins_succ, Nat.add_sub_cancel]
      exact Nat.add_lt_add_right ((hlt k).1 (Nat.lt_succ_self k)) _
    · have hzero : 0 < n ↔ 0 < v.timeout := hlt 0
      omega

/-- Polling follows its schedule, unless it makes more calls than it can count. -/
theorem on_schedule (v : PolledProbe ε α) (stopped : ε) (hcount : ¬ v.Due Task.maxPolls) :
    ∃ n r time, v.Kept stopped n r time := by
  obtain ⟨n, -, hcalls, -, hends⟩ := v.course stopped none
  obtain ⟨r, time, hconcludes, hresult, hended⟩ : ∃ r time, v.Concludes n r time ∧
      ((v.task stopped).runAlone v.service (v.moment none)).1 = some r ∧
      ((v.task stopped).runAlone v.service (v.moment none)).2.now = v.start + time := by
    rcases hends.of_counted hcount with h | ⟨-, stop, hmem, -⟩
    · exact h
    · cases hmem
  exact ⟨n, r, time, {
    due := fun i => hconcludes.lt_iff_due
    calls := by rw [hcalls, Nat.sub_zero, List.range_eq_range']
    result := hresult
    ended := hended
    found := fun k a hdue houtcome => (hconcludes.unique (.found hdue houtcome)).2
    failed := fun k e hdue houtcome => (hconcludes.unique (.failed hdue houtcome)).2
    vain := hconcludes.vain
    halted := fun stop => by
      obtain ⟨n', -, hcalls', hdue', hends'⟩ := v.course stopped (some stop)
      have hle : n' ≤ n :=
        Nat.not_lt.1 fun hlt => Nat.lt_irrefl n (hconcludes.lt_iff_due.2 (hdue' n hlt))
      refine ⟨?_, ?_⟩
      · obtain ⟨k, rfl⟩ := Nat.exists_eq_add_of_le hle
        rw [hcalls', Nat.sub_zero, ← List.range_eq_range', List.range_add, List.map_append]
        exact List.prefix_append _ _
      · rcases hends'.of_counted hcount with ⟨r', time', h, hresult', hended'⟩ | ⟨hresult', hstop⟩
        · obtain ⟨-, rfl, rfl⟩ := hconcludes.unique h
          exact .inl ⟨hresult', hended'⟩
        · obtain ⟨_, ⟨⟩, hle⟩ := hstop
          exact .inr ⟨hresult', hle⟩ }⟩

/-- Three looks in vain, the second of them longer than the interval. -/
theorem on_schedule_in_vain :
    let v : PolledProbe Unit Unit := ⟨⟨250, 100⟩, fun i => ⟨if i = 1 then 120 else 10, .ok none⟩, 7⟩
    ¬ v.Due Task.maxPolls ∧ ∃ n r time, v.Kept () n r time := by
  intro v
  have hthree : v.begins 3 = 320 := rfl
  have hcount : ¬ v.Due Task.maxPolls := by
    have hle : v.begins 3 ≤ v.begins Task.maxPolls := v.begins_mono (by decide)
    exact fun h => absurd (hthree ▸ hle.trans_lt h.1) (by decide)
  exact ⟨hcount, v.on_schedule () hcount⟩

end PolledProbe

end DeviceSuite
