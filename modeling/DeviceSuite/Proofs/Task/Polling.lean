import DeviceSuite.Proofs.Task.Exchanges
import DeviceSuite.Task.Poll

/-!
# The course of polling

Polling goes on from one call of its probe to the next. A call is due as long as the time is not
over, the stop flag is not raised, and the call can be counted; after a call that has found nothing
the rest of the interval passes, unless the stop comes first. Nothing else ends it but a call that
finds something, fails or crashes.
-/

namespace DeviceSuite

variable {C : Type} {R : C → Type} {α ε σ : Type}

namespace Moment

/-- The rest of an interval passes, or is cut short by the stop. When nothing is left of it, the
others only get their turn. -/
def rest (m : Moment σ) (ms : Nat) : Bool × Moment σ := if ms = 0 then (true, m) else m.pause ms

variable {m m' : Moment σ} {ms : Nat}

/-- What passes of an interval is the rest of it. -/
theorem eq_of_rest_true (h : m.rest ms = (true, m')) : m' = { m with now := m.now + ms } := by
  rw [rest] at h
  split at h
  · next hms =>
    cases h
    rw [hms, Nat.add_zero]
  · cases hflag : m.isStopped with
    | true =>
      rw [pause_of_isStopped hflag] at h
      cases h
    | false =>
      obtain ⟨time, -, -, -, hpause⟩ | ⟨-, hpause⟩ := pause_of_free hflag ms
      · cases hpause.symm.trans h
      · cases hpause.symm.trans h
        rfl

/-- A pause is cut short only by the stop. -/
theorem of_pause_false (h : m.pause ms = (false, m')) :
    m.now ≤ m'.now ∧ m'.stopAt = m.stopAt ∧ m'.isStopped = true := by
  cases hflag : m.isStopped with
  | true =>
    rw [pause_of_isStopped hflag] at h
    cases h
    exact ⟨Nat.le_refl _, rfl, hflag⟩
  | false =>
    obtain ⟨time, hmem, hafter, -, hpause⟩ | ⟨-, hpause⟩ := pause_of_free hflag ms
    · cases hpause.symm.trans h
      exact ⟨Nat.le_of_lt hafter, rfl, isStopped_iff.2 ⟨time, hmem, Nat.le_refl _⟩⟩
    · cases hpause.symm.trans h

/-- An interval is cut short only by the stop. -/
theorem of_rest_false (h : m.rest ms = (false, m')) :
    m.now ≤ m'.now ∧ m'.stopAt = m.stopAt ∧ m'.isStopped = true := by
  rw [rest] at h
  split at h
  · cases h
  · exact of_pause_false h

end Moment

namespace Exchange

/-- Calls are made at a pace from an instant on: each begins an interval after the one before it, or
at the end of that one if it takes longer. -/
def Paced (interval : Nat) : Nat → List (Exchange R) → Prop
  | _, [] => True
  | time, x :: rest =>
    x.began = time ∧ Paced interval (time + max interval (x.ended - time)) rest

/-- The instant at which another call is due after calls at a pace. -/
def nextAt (interval : Nat) : Nat → List (Exchange R) → Nat
  | time, [] => time
  | time, x :: rest => nextAt interval (time + max interval (x.ended - time)) rest

variable {interval time k : Nat} {log : List (Exchange R)} {x : Exchange R}

/-- Each of the calls takes an interval at least. -/
theorem le_nextAt (interval time : Nat) (log : List (Exchange R)) :
    time + log.length * interval ≤ nextAt interval time log := by
  induction log generalizing time with
  | nil => exact Nat.le_of_eq (by rw [List.length_nil, Nat.zero_mul]; rfl)
  | cons x rest ih =>
    calc time + (x :: rest).length * interval
        = time + interval + rest.length * interval := by
          rw [List.length_cons, Nat.succ_mul]
          omega
      _ ≤ time + max interval (x.ended - time) + rest.length * interval := by omega
      _ ≤ nextAt interval time (x :: rest) := ih _

/-- At a pace, each call begins as many intervals after the first as there are calls before it. -/
theorem Paced.le_began (h : Paced interval time log) (hx : log[k]? = some x) :
    time + k * interval ≤ x.began := by
  induction log generalizing time k with
  | nil => cases hx
  | cons y rest ih =>
    cases k with
    | zero =>
      obtain rfl : y = x := Option.some.inj hx
      rw [Nat.zero_mul]
      exact Nat.le_of_eq h.1.symm
    | succ k =>
      have hrest := ih h.2 hx
      rw [Nat.succ_mul]
      omega

end Exchange

/-- Another call is due: the time is not over, the stop flag is not raised, and the call can be
counted. -/
structure PollDue (policy : PollPolicy) (started i : Nat) (m : Moment σ) : Prop where
  early : m.now - started < policy.timeoutMs.toNat
  free : m.isStopped = false
  counted : i < Task.maxPolls

/-- Polling that has made so many calls goes on from a moment: it makes these calls, has this
result, and ends at this moment. -/
inductive Polls (s : Service R σ) (policy : PollPolicy) (stopped : ε)
    (probe : Task R (Except ε (Option α))) (started : Nat) : Nat → Moment σ →
    List (Exchange R) → Option (Except ε (PollOutcome α)) → Moment σ → Prop where
  | late {i : Nat} {m : Moment σ} : policy.timeoutMs.toNat ≤ m.now - started →
    Polls s policy stopped probe started i m [] (some (.ok ⟨false, none, m.now - started, i⟩)) m
  | halted {i : Nat} {m : Moment σ} : m.now - started < policy.timeoutMs.toNat →
    m.isStopped = true → Polls s policy stopped probe started i m [] (some (.error stopped)) m
  | uncounted {m : Moment σ} : m.now - started < policy.timeoutMs.toNat → m.isStopped = false →
    Polls s policy stopped probe started Task.maxPolls m [] none m
  | crashed {i : Nat} {m m₁ : Moment σ} : PollDue policy started i m →
    probe.runAlone s m = (none, m₁) →
    Polls s policy stopped probe started i m (probe.exchanges s m) none m₁
  | failed {i : Nat} {m m₁ : Moment σ} {e : ε} : PollDue policy started i m →
    probe.runAlone s m = (some (.error e), m₁) →
    Polls s policy stopped probe started i m (probe.exchanges s m) (some (.error e)) m₁
  | found {i : Nat} {m m₁ : Moment σ} {a : α} : PollDue policy started i m →
    probe.runAlone s m = (some (.ok (some a)), m₁) →
    Polls s policy stopped probe started i m (probe.exchanges s m)
      (some (.ok ⟨true, some a, m₁.now - started, i + 1⟩)) m₁
  | broken {i : Nat} {m m₁ m₂ : Moment σ} : PollDue policy started i m →
    probe.runAlone s m = (some (.ok none), m₁) →
    m₁.rest (policy.intervalMs.toNat - (m₁.now - m.now)) = (false, m₂) →
    Polls s policy stopped probe started i m (probe.exchanges s m) (some (.error stopped)) m₂
  | again {i : Nat} {m m₁ m₂ m' : Moment σ} {log : List (Exchange R)}
    {r : Option (Except ε (PollOutcome α))} : PollDue policy started i m →
    probe.runAlone s m = (some (.ok none), m₁) →
    m₁.rest (policy.intervalMs.toNat - (m₁.now - m.now)) = (true, m₂) →
    Polls s policy stopped probe started (i + 1) m₂ log r m' →
    Polls s policy stopped probe started i m (probe.exchanges s m ++ log) r m'

namespace Task

variable {s : Service R σ} {policy : PollPolicy} {stopped : ε}
  {probe : Task R (Except ε (Option α))} {started left i : Nat} {m : Moment σ}
  {Q : List (Exchange R) → Option (Except ε (PollOutcome α)) → Moment σ → Prop}

/-- Polling ends when its time is over. -/
theorem goes_polls_late (h : policy.timeoutMs.toNat ≤ m.now - started) :
    (polls policy stopped probe started left i).Goes s m Q ↔
      Q [] (some (.ok ⟨false, none, m.now - started, i⟩)) m := by
  rw [polls.eq_def, goes_now_bind, if_pos h, goes_pure]

/-- While the time is not over, polling ends when the stop flag is raised. -/
theorem goes_polls_halted (hearly : m.now - started < policy.timeoutMs.toNat)
    (hflag : m.isStopped = true) :
    (polls policy stopped probe started left i).Goes s m Q ↔ Q [] (some (.error stopped)) m := by
  rw [polls.eq_def, goes_now_bind, if_neg (Nat.not_le.2 hearly), goes_isStopped_bind, if_pos hflag,
    goes_pure]

/-- Another call that could not be counted is not made. -/
theorem goes_polls_uncounted (hearly : m.now - started < policy.timeoutMs.toNat)
    (hflag : m.isStopped = false) :
    (polls policy stopped probe started 0 i).Goes s m Q ↔ Q [] none m := by
  rw [polls, goes_now_bind, if_neg (Nat.not_le.2 hearly), goes_isStopped_bind, hflag]
  exact Iff.rfl

/-- One round of polling: what its call comes to decides, and if that is nothing, whether the rest
of the interval passes. -/
theorem goes_polls_due (hearly : m.now - started < policy.timeoutMs.toNat)
    (hflag : m.isStopped = false) :
    (polls policy stopped probe started (left + 1) i).Goes s m Q ↔
      probe.Goes s m fun log r m₁ => match r with
        | none => Q log none m₁
        | some (.error e) => Q log (some (.error e)) m₁
        | some (.ok (some a)) => Q log (some (.ok ⟨true, some a, m₁.now - started, i + 1⟩)) m₁
        | some (.ok none) =>
          match m₁.rest (policy.intervalMs.toNat - (m₁.now - m.now)) with
          | (false, m₂) => Q log (some (.error stopped)) m₂
          | (true, m₂) => (polls policy stopped probe started left (i + 1)).Goes s m₂
              fun more => Q (log ++ more) := by
  rw [polls, goes_now_bind, if_neg (Nat.not_le.2 hearly), goes_isStopped_bind, hflag]
  simp only [Bool.false_eq_true, ↓reduceIte]
  rw [goes_now_bind, goes_bind, Goes, Goes]
  rcases (probe.runAlone s m).1 with _ | e | _ | a
  · exact Iff.rfl
  · dsimp only [Option.elim]
    rw [goes_pure, List.append_nil]
  · dsimp only [Option.elim]
    rw [goes_now_bind, Moment.rest]
    -- The rest of the interval is a turn for the others, or a pause.
    split
    · exact goes_yield_bind
    · rw [goes_sleep_bind]
      rcases Moment.pause _ _ with ⟨_ | _, m₂⟩
      · rw [if_pos Bool.not_false, goes_pure, List.append_nil]
      · exact Iff.rfl
  · dsimp only [Option.elim]
    rw [goes_now_bind, goes_pure, List.append_nil]

/-- Polling takes its course. -/
theorem goes_polls (hleft : i + left = maxPolls) :
    (polls policy stopped probe started left i).Goes s m
      (Polls s policy stopped probe started i m) := by
  induction left generalizing i m with
  | zero =>
    rcases Nat.lt_or_ge (m.now - started) policy.timeoutMs.toNat with hearly | hover
    · cases hflag : m.isStopped with
      | true => exact (goes_polls_halted hearly hflag).2 (.halted hearly hflag)
      | false =>
        obtain rfl : i = maxPolls := hleft
        exact (goes_polls_uncounted hearly hflag).2 (.uncounted hearly hflag)
    · exact (goes_polls_late hover).2 (.late hover)
  | succ left ih =>
    rcases Nat.lt_or_ge (m.now - started) policy.timeoutMs.toNat with hearly | hover
    · cases hflag : m.isStopped with
      | true => exact (goes_polls_halted hearly hflag).2 (.halted hearly hflag)
      | false =>
        have hdue : PollDue policy started i m := ⟨hearly, hflag, by omega⟩
        refine (goes_polls_due hearly hflag).2 ?_
        obtain ⟨r, m₁, hprobe⟩ : ∃ r m₁, probe.runAlone s m = (r, m₁) := ⟨_, _, rfl⟩
        rw [Goes, hprobe]
        rcases r with _ | e | _ | a
        · exact .crashed hdue hprobe
        · exact .failed hdue hprobe
        · dsimp only
          split
          · next m₂ hrest => exact .broken hdue hprobe hrest
          · next m₂ hrest =>
            have hnext := ih (m := m₂) (Nat.add_right_comm i 1 left ▸ hleft)
            exact hnext.mono fun _ _ _ h => .again hdue hprobe hrest h
        · exact .found hdue hprobe
    · exact (goes_polls_late hover).2 (.late hover)

/-- Polling takes its course from its beginning. -/
theorem goes_pollUntil :
    (pollUntil policy stopped probe).Goes s m (Polls s policy stopped probe m.now 0 m) :=
  goes_polls (Nat.zero_add maxPolls)

end Task

end DeviceSuite
