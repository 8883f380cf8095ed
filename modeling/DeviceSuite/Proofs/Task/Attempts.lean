import DeviceSuite.Proofs.Task.Exchanges
import DeviceSuite.Task.Retry
import DeviceSuite.Task.Script
import Mathlib.Algebra.BigOperators.Intervals
import Mathlib.Order.Bounds.Basic

/-!
# The attempts of a retried operation

An operation is attempted until the first attempt after which no other may follow: because it has
succeeded, because its failure is not one that may pass, because it was the last that the policy
allows, or because the stop flag is raised before the next one would begin. What that attempt comes
to is what the retried operation comes to.
-/

namespace DeviceSuite

variable {ε α : Type}

/-- An attempt with its number, or the note that a failed one is to be followed by another. -/
inductive Trial (ε : Type) where
  | attempt (number : Nat)
  | note (number : Nat) (error : ε)

/-- The reply to an attempt or to a note. -/
abbrev Trial.Reply (ε α : Type) : Trial ε → Type
  | attempt _ => Except ε α
  | note _ _ => Unit

/-- An operation that makes one attempt. -/
def attempting (n : Nat) : Task (Trial.Reply ε α) (Except ε α) := Task.ask (Trial.attempt n)

/-- A hook that writes down what it is told. -/
def noting (n : Nat) (e : ε) : Task (Trial.Reply ε α) Unit := Task.ask (Trial.note n e)

/-- A retried operation: what its attempts come to, in their order from number one on, when it
begins, and when the stop flag is raised, if it is. -/
structure RetriedOperation (ε α : Type) where
  policy : RetryPolicy
  mayPass : ε → Bool
  script : Nat → ScriptEntry ε α
  start : Nat
  stopAt : Option Nat

namespace RetriedOperation

variable (d : RetriedOperation ε α)

/-- The operation, retried. -/
def task : Task (Trial.Reply ε α) (Except ε α) :=
  Task.retry d.policy d.mayPass attempting noting

/-- The script as a service, which knows the number of the next entry. -/
def service : Service (Trial.Reply ε α) Nat where
  accept _ next
    | .attempt _ => ⟨next, (d.script next).latency, []⟩
    | .note _ _ => ⟨next, 0, []⟩
  answer _ next
    | .attempt _ => (next + 1, some (d.script next).outcome)
    | .note _ _ => (next, some ())

/-- The moment at which the operation begins. -/
def moment : Moment Nat := ⟨d.start, d.stopAt, 1⟩

/-- The pause between two attempts. -/
def delay : Nat := d.policy.delayMs.toNat

/-- When an attempt begins that comes after all earlier ones and the pauses between them. -/
def begins (i : Nat) : Nat := d.start + ∑ j ∈ Finset.Ico 1 i, ((d.script j).latency + d.delay)

/-- When that attempt ends. -/
def ends (i : Nat) : Nat := d.begins i + (d.script i).latency

/-- No attempt may follow this one. -/
inductive Final (d : RetriedOperation ε α) (i : Nat) : Prop where
  | passed {a : α} : (d.script i).outcome = .ok a → Final d i
  | refused {e : ε} : (d.script i).outcome = .error e → d.mayPass e = false → Final d i
  | spent : i = d.policy.attempts → Final d i
  | stopped {time : Nat} : time ∈ d.stopAt → time ≤ d.ends i + d.delay → Final d i

/-- The stop flag is raised in the pause after an attempt that another one might have followed. -/
structure CutShort (d : RetriedOperation ε α) (i time : Nat) : Prop where
  mem : time ∈ d.stopAt
  after : d.ends i < time
  before : time ≤ d.ends i + d.delay
  left : i ≠ d.policy.attempts
  fails : ∃ e, (d.script i).outcome = .error e ∧ d.mayPass e = true

/-- An attempt as it is made. -/
def attempted (i : Nat) : Exchange (Trial.Reply ε α) :=
  ⟨.attempt i, d.begins i, d.ends i, some (d.script i).outcome⟩

/-- The note of its failure, if it has failed. -/
def noted (i : Nat) : List (Exchange (Trial.Reply ε α)) :=
  match (d.script i).outcome with
  | .ok _ => []
  | .error e => [⟨.note i e, d.ends i, d.ends i, some ()⟩]

/-- An attempt and the note of its failure. -/
def turn (i : Nat) : List (Exchange (Trial.Reply ε α)) := d.attempted i :: d.noted i

/-- From one attempt on, the operation is attempted until the first final attempt, with these calls,
and ends at this instant. -/
structure Settles (d : RetriedOperation ε α) (i last : Nat) (log : List (Exchange (Trial.Reply ε α)))
    (time : Nat) : Prop where
  le : i ≤ last
  final : d.Final last
  earlier : ∀ j, i ≤ j → j < last → ¬ d.Final j
  cut : ∀ stop, d.CutShort last stop →
    log = (List.range' i (last + 1 - i)).flatMap d.turn ∧ time = stop
  whole : (∀ stop, ¬ d.CutShort last stop) →
    log = (List.range' i (last - i)).flatMap d.turn ++ [d.attempted last] ∧ time = d.ends last

variable {d} {i last time : Nat} {log : List (Exchange (Trial.Reply ε α))}

/-- An attempt begins when the one before it has ended and the pause is over. -/
theorem begins_succ (hi : 1 ≤ i) : d.begins (i + 1) = d.ends i + d.delay := by
  rw [begins, Finset.sum_Ico_succ_top hi, ends, begins]
  omega

/-- An attempt is exchanged for what the script says of it. -/
theorem exchange_attempt (d : RetriedOperation ε α) (i n : Nat) :
    d.service.exchange ⟨d.begins i, d.stopAt, i⟩ (.attempt n) =
      (some (d.script i).outcome, ⟨d.ends i, d.stopAt, i + 1⟩) := rfl

/-- A note is exchanged for nothing, and takes no time. -/
theorem exchange_note (d : RetriedOperation ε α) (m : Moment Nat) (n : Nat) (e : ε) :
    d.service.exchange m (.note n e) = (some (), m) := rfl

/-- The last attempt is made, and nothing follows. -/
theorem Settles.single (hfinal : d.Final i) (hcut : ∀ stop, ¬ d.CutShort i stop) :
    d.Settles i i [d.attempted i] (d.ends i) where
  le := le_rfl
  final := hfinal
  earlier := by omega
  cut stop h := absurd h (hcut stop)
  whole _ := by simp

/-- The pause after an attempt is cut short, and nothing follows. -/
theorem Settles.broken (hcut : d.CutShort i time) : d.Settles i i (d.turn i) time where
  le := le_rfl
  final := .stopped hcut.mem hcut.before
  earlier := by omega
  cut stop h := by
    have hstop : time = stop := Option.mem_unique hcut.mem h.mem
    simpa using hstop
  whole h := absurd hcut (h time)

/-- The next attempt follows. -/
theorem Settles.cons (hfinal : ¬ d.Final i) (h : d.Settles (i + 1) last log time) :
    d.Settles i last (d.turn i ++ log) time where
  le := (Nat.le_succ i).trans h.le
  final := h.final
  earlier j hij hlast := by
    rcases Nat.eq_or_lt_of_le hij with rfl | hij
    · exact hfinal
    · exact h.earlier j hij hlast
  cut stop hcut := by
    have hlast : last + 1 - i = last + 1 - (i + 1) + 1 := by have := h.le; omega
    obtain ⟨hlog, htime⟩ := h.cut stop hcut
    rw [hlast, List.range'_succ, List.flatMap_cons, ← hlog]
    exact ⟨rfl, htime⟩
  whole hcut := by
    have hlast : last - i = last - (i + 1) + 1 := by have := h.le; omega
    obtain ⟨hlog, htime⟩ := h.whole hcut
    rw [hlast, List.range'_succ, List.flatMap_cons, List.append_assoc, ← hlog]
    exact ⟨rfl, htime⟩

/-- Only in the pause after a failure that may pass can an attempt be cut short. -/
theorem CutShort.mayPass {e : ε} (h : d.CutShort i time)
    (houtcome : (d.script i).outcome = .error e) : d.mayPass e = true := by
  obtain ⟨e', he', hpass⟩ := h.fails
  cases houtcome.symm.trans he'
  exact hpass

/-- An operation settles with an attempt that succeeds. -/
theorem settles_passed {a : α} (houtcome : (d.script i).outcome = .ok a) :
    d.Settles i i [d.attempted i] (d.ends i) := by
  refine .single (.passed houtcome) fun stop h => ?_
  obtain ⟨e, he, -⟩ := h.fails
  cases houtcome.symm.trans he

/-- Without another attempt the failure of this one is final. -/
theorem settles_refused {e : ε} (houtcome : (d.script i).outcome = .error e)
    (h : d.mayPass e = false ∨ ∃ stop ∈ d.stopAt, stop ≤ d.ends i) :
    d.Settles i i [d.attempted i] (d.ends i) := by
  rcases h with hpass | ⟨stop, hmem, hstop⟩
  · refine .single (.refused houtcome hpass) fun stop h => ?_
    exact Bool.false_ne_true (hpass.symm.trans (h.mayPass houtcome))
  · refine .single (.stopped hmem (hstop.trans (Nat.le_add_right _ _))) fun stop' h => ?_
    obtain rfl := Option.mem_unique hmem h.mem
    exact absurd h.after (Nat.not_lt.2 hstop)

/-- Another attempt follows one that has failed in a way that may pass, unless it was the last one
or the stop comes before the end of the pause. -/
theorem not_final {e : ε} (houtcome : (d.script i).outcome = .error e) (hpass : d.mayPass e = true)
    (hleft : i ≠ d.policy.attempts) (hlate : ∀ stop ∈ d.stopAt, d.ends i + d.delay < stop) :
    ¬ d.Final i := by
  rintro (h | ⟨h, hpass'⟩ | h | ⟨h, hstop⟩)
  · cases houtcome.symm.trans h
  · cases houtcome.symm.trans h
    exact Bool.false_ne_true (hpass'.symm.trans hpass)
  · exact hleft h
  · exact absurd (hlate _ h) (Nat.not_lt.2 hstop)

/-- The moment at which an attempt ends that comes after all earlier ones. -/
def after (d : RetriedOperation ε α) (i : Nat) : Moment Nat := ⟨d.ends i, d.stopAt, i + 1⟩

/-- One attempt that others may follow: it is made, and if it fails in a way that may pass, the hook
is told and the pause begins. -/
theorem goes_attempt {left : Nat}
    {Q : List (Exchange (Trial.Reply ε α)) → Option (Except ε α) → Moment Nat → Prop} :
    (Task.attempts d.delay d.mayPass noting attempting (left + 1) i).Goes d.service
        ⟨d.begins i, d.stopAt, i⟩ Q ↔
      match (d.script i).outcome with
      | .ok a => Q [d.attempted i] (some (.ok a)) (d.after i)
      | .error e =>
        if (d.after i).isStopped || !d.mayPass e then
          Q [d.attempted i] (some (.error e)) (d.after i)
        else match (d.after i).pause d.delay with
          | (false, m) => Q (d.turn i) (some (.error e)) m
          | (true, m) => (Task.attempts d.delay d.mayPass noting attempting left (i + 1)).Goes
              d.service m fun more => Q (d.turn i ++ more) := by
  have hattempt := congrArg Prod.fst (d.exchange_attempt i i)
  have hrecord : d.service.record ⟨d.begins i, d.stopAt, i⟩ (.attempt i) = d.attempted i := rfl
  rw [Task.attempts, attempting, Task.goes_ask_bind hattempt, exchange_attempt, hrecord]
  cases houtcome : (d.script i).outcome with
  | ok a => exact Iff.rfl
  | error e =>
    have hturn : d.turn i = [d.attempted i, d.service.record (d.after i) (.note i e)] := by
      rw [turn, noted, houtcome]
      rfl
    have hnote := congrArg Prod.fst (d.exchange_note (d.after i) i e)
    dsimp only
    rw [Task.goes_isStopped_bind, ← after]
    split
    · exact Iff.rfl
    · rw [noting, Task.goes_ask_bind hnote, exchange_note, Task.goes_sleep_bind, hturn]
      rcases Moment.pause _ _ with ⟨_ | _, m⟩ <;> exact Iff.rfl

/-- From one attempt on, the operation settles. -/
theorem goes_attempts (left : Nat) (hi : 1 ≤ i) (hleft : i + left = d.policy.attempts) :
    (Task.attempts d.delay d.mayPass noting attempting left i).Goes d.service
      ⟨d.begins i, d.stopAt, i⟩
      fun log r m' => ∃ last, r = some (d.script last).outcome ∧ d.Settles i last log m'.now := by
  induction left generalizing i with
  | zero =>
    have hlast : i = d.policy.attempts := hleft
    have hcut : ∀ stop, ¬ d.CutShort i stop := fun _ h => h.left hlast
    exact Task.goes_ask.2 ⟨i, rfl, .single (.spent hlast) hcut⟩
  | succ left ih =>
    have hlast : i ≠ d.policy.attempts := by omega
    rw [goes_attempt]
    cases houtcome : (d.script i).outcome with
    | ok a => exact ⟨i, congrArg some houtcome.symm, settles_passed houtcome⟩
    | error e =>
      have hresult : some (Except.error e) = some (d.script i).outcome :=
        congrArg some houtcome.symm
      dsimp only
      split
      · next hends =>
        rcases Bool.or_eq_true_iff.1 hends with hflag | hpass
        · have hstop := Moment.isStopped_iff.1 hflag
          exact ⟨i, hresult, settles_refused houtcome (.inr hstop)⟩
        · have hrefused : d.mayPass e = false := by simpa using hpass
          exact ⟨i, hresult, settles_refused houtcome (.inl hrefused)⟩
      · next hgoes =>
        obtain ⟨hflag, hpass⟩ : (d.after i).isStopped = false ∧ d.mayPass e = true := by
          simpa using hgoes
        -- The pause lasts until the stop flag is raised, or until the next attempt begins.
        obtain ⟨stop, hmem, hafter, hbefore, hpause⟩ | ⟨hlate, hpause⟩ :=
          Moment.pause_of_free hflag d.delay
        · rw [hpause]
          exact ⟨i, hresult, .broken ⟨hmem, hafter, hbefore, hlast, e, houtcome, hpass⟩⟩
        · have hfinal := not_final houtcome hpass hlast hlate
          have hnext := ih (Nat.le_succ_of_le hi) (Nat.add_right_comm i 1 left ▸ hleft)
          rw [begins_succ hi] at hnext
          rw [hpause]
          exact hnext.mono fun _ _ _ ⟨last, hr, hsettles⟩ => ⟨last, hr, hsettles.cons hfinal⟩

/-- A retried operation is attempted until its first final attempt, and comes to what that one comes
to. The attempts before it have failed in ways that may pass, and the hook is told of each of them
before the pause that follows it; of the last attempt it is told when the stop comes in the pause
after that one, and then the operation ends with the stop, otherwise with the last attempt. -/
theorem retried_exactly (d : RetriedOperation ε α) :
    ∃ last, IsLeast {i | 1 ≤ i ∧ d.Final i} last ∧
      (∀ i, 1 ≤ i → i < last → ∃ e, (d.script i).outcome = .error e ∧ d.mayPass e = true) ∧
      (d.task.runAlone d.service d.moment).1 = some (d.script last).outcome ∧
      (∀ stop, d.CutShort last stop →
        d.task.exchanges d.service d.moment = (List.range' 1 last).flatMap d.turn ∧
        (d.task.runAlone d.service d.moment).2.now = stop) ∧
      ((∀ stop, ¬ d.CutShort last stop) →
        d.task.exchanges d.service d.moment =
          (List.range' 1 (last - 1)).flatMap d.turn ++ [d.attempted last] ∧
        (d.task.runAlone d.service d.moment).2.now = d.ends last) ∧
      (d.stopAt = none → (d.task.runAlone d.service d.moment).2.now =
        d.start + ∑ i ∈ Finset.Icc 1 last, (d.script i).latency + (last - 1) * d.delay) := by
  have hattempts : 1 ≤ d.policy.attempts := Nat.le_max_left _ _
  have hbegins : d.begins 1 = d.start := by simp [begins]
  have hgoes := d.goes_attempts (d.policy.attempts - 1) le_rfl (by omega)
  rw [hbegins] at hgoes
  obtain ⟨last, hresult, h⟩ := hgoes
  refine ⟨last, ⟨⟨h.le, h.final⟩, ?_⟩, ?_, hresult, h.cut, h.whole, ?_⟩
  · intro i hi
    by_contra hlt
    exact h.earlier i hi.1 (Nat.lt_of_not_le hlt) hi.2
  · intro i hi hlt
    have hfinal := h.earlier i hi hlt
    cases houtcome : (d.script i).outcome with
    | ok a => exact absurd (.passed houtcome) hfinal
    | error e =>
      cases hpass : d.mayPass e with
      | true => exact ⟨e, rfl, hpass⟩
      | false => exact absurd (.refused houtcome hpass) hfinal
  · intro hstop
    have hcut : ∀ stop, ¬ d.CutShort last stop := by
      intro stop hcut
      cases hstop.symm.trans hcut.mem
    have hsum : ∑ i ∈ Finset.Ico 1 last, ((d.script i).latency + d.delay) =
        ∑ i ∈ Finset.Ico 1 last, (d.script i).latency + (last - 1) * d.delay := by
      rw [Finset.sum_add_distrib, Finset.sum_const_nat fun _ _ => rfl, Nat.card_Ico]
    calc (d.task.runAlone d.service d.moment).2.now
        = d.ends last := (h.whole hcut).2
      _ = d.start + ∑ i ∈ Finset.Ico 1 (last + 1), (d.script i).latency + (last - 1) * d.delay := by
          rw [ends, begins, hsum, Finset.sum_Ico_succ_top h.le]
          omega

/-- Two failures are noted; the stop comes in the pause after the second one. -/
example :
    let d : RetriedOperation Unit Unit :=
      ⟨⟨3, 100⟩, fun _ => true, fun _ => ⟨10, .error ()⟩, 0, some 150⟩
    d.task.runAlone d.service d.moment = (some (.error ()), ⟨150, some 150, 3⟩) ∧
      d.task.exchanges d.service d.moment = d.turn 1 ++ d.turn 2 :=
  ⟨rfl, rfl⟩

end RetriedOperation

end DeviceSuite
