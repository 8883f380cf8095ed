import DeviceSuite.Proofs.Task.Terms
import DeviceSuite.Task.Service

/-!
# Transcripts of tasks

A transcript is what a task is told from its beginning to its end: the times it reads, the readings
of the stop flag, and the replies to its calls. It determines how the task ends, and whoever runs a
task to its end leaves one, `runAlone_yields`. So what is true of all transcripts is true wherever
the task goes on, alone or among others; the rules for that follow the shape of the task.
-/

namespace DeviceSuite

/-- What a task is told at one point. -/
inductive Answer {C : Type} (R : C → Type) where
  | time (ms : Nat)
  | flag (raised : Bool)
  | rested (full : Bool)
  | turn
  | reply (c : C) (r : Option (R c))

namespace Answer

variable {C : Type} {R : C → Type}

/-- The call that is answered, if it is one. -/
def call? : Answer R → Option C
  | reply c _ => some c
  | _ => none

end Answer

namespace Task

variable {C C' : Type} {R : C → Type} {R' : C' → Type} {α β : Type}

/-- A task that is told this, one thing after the other, ends like this; without a result it has
crashed. -/
inductive Yields {α : Type} : Task R α → List (Answer R) → Option α → Prop where
  | done {a : α} : Yields (.done a) [] (some a)
  | crash : Yields .crash [] none
  | clock {next : Nat → Task R α} {ms : Nat} {told : List (Answer R)} {r : Option α} :
    Yields (next ms) told r → Yields (.clock next) (.time ms :: told) r
  | stopRequested {next : Bool → Task R α} {b : Bool} {told : List (Answer R)} {r : Option α} :
    Yields (next b) told r → Yields (.stopRequested next) (.flag b :: told) r
  | pause {ms : Nat} {next : Bool → Task R α} {full : Bool} {told : List (Answer R)}
    {r : Option α} :
    Yields (next full) told r → Yields (.pause ms next) (.rested full :: told) r
  | giveWay {next : Task R α} {told : List (Answer R)} {r : Option α} :
    Yields next told r → Yields (.giveWay next) (.turn :: told) r
  | call {c : C} {next : Option (R c) → Task R α} {reply : Option (R c)}
    {told : List (Answer R)} {r : Option α} :
    Yields (next reply) told r → Yields (.call c next) (.reply c reply :: told) r

/-- Whatever a task is told, it ends as `Q` says of that. -/
def Ends : Task R α → (List (Answer R) → Option α → Prop) → Prop
  | done a, Q => Q [] (some a)
  | crash, Q => Q [] none
  | clock next, Q => ∀ ms, (next ms).Ends fun told => Q (.time ms :: told)
  | stopRequested next, Q => ∀ b, (next b).Ends fun told => Q (.flag b :: told)
  | pause _ next, Q => ∀ full, (next full).Ends fun told => Q (.rested full :: told)
  | giveWay next, Q => next.Ends fun told => Q (.turn :: told)
  | call c next, Q => ∀ r, (next r).Ends fun told => Q (.reply c r :: told)

/-- Whatever a task is told, its result is as `Q` says of that, unless it crashes. -/
def Returns (t : Task R α) (Q : List (Answer R) → α → Prop) : Prop :=
  t.Ends fun told r => ∀ a ∈ r, Q told a

section Ends

variable {t : Task R α} {Q Q' : List (Answer R) → Option α → Prop}

/-- What a task ends as is true of its transcripts. -/
theorem Ends.of_yields {told : List (Answer R)} {r : Option α} (h : t.Ends Q)
    (ht : t.Yields told r) : Q told r := by
  induction ht generalizing Q with
  | done => exact h
  | crash => exact h
  | clock _ ih => exact ih (h _)
  | stopRequested _ ih => exact ih (h _)
  | pause _ ih => exact ih (h _)
  | giveWay _ ih => exact ih h
  | call _ ih => exact ih (h _)

/-- A task ends as is true of all its transcripts. -/
theorem ends_of_forall (h : ∀ told r, t.Yields told r → Q told r) : t.Ends Q := by
  induction t generalizing Q with
  | done a => exact h _ _ .done
  | crash => exact h _ _ .crash
  | clock next ih => exact fun ms => ih ms fun told r ht => h _ r (.clock ht)
  | stopRequested next ih => exact fun b => ih b fun told r ht => h _ r (.stopRequested ht)
  | pause ms next ih => exact fun full => ih full fun told r ht => h _ r (.pause ht)
  | giveWay next ih => exact ih fun told r ht => h _ r (.giveWay ht)
  | call c next ih => exact fun reply => ih reply fun told r ht => h _ r (.call ht)

/-- Whatever a task is told, that is what it yields. -/
theorem ends_yields (t : Task R α) : t.Ends t.Yields := ends_of_forall fun _ _ ht => ht

/-- A task that ends somehow does so by any weaker account. -/
theorem Ends.mono (h : t.Ends Q) (hQ : ∀ told r, Q told r → Q' told r) : t.Ends Q' :=
  ends_of_forall fun told r ht => hQ told r (h.of_yields ht)

/-- A task that ends in two ways ends in both. -/
theorem Ends.and (h : t.Ends Q) (h' : t.Ends Q') : t.Ends fun told r => Q told r ∧ Q' told r :=
  ends_of_forall fun _ _ ht => ⟨h.of_yields ht, h'.of_yields ht⟩

/-- A task ends through a part as the rest of it does from there. -/
theorem ends_taskBind {f : α → Task R β} {Q : List (Answer R) → Option β → Prop} :
    (t.bind f).Ends Q ↔ t.Ends fun told r =>
      r.elim (Q told none) fun a => (f a).Ends fun more => Q (told ++ more) := by
  induction t generalizing Q with
  | done a => exact Iff.rfl
  | crash => exact Iff.rfl
  | clock next ih => simp only [Task.bind, Ends, ih, List.cons_append]
  | stopRequested next ih => simp only [Task.bind, Ends, ih, List.cons_append]
  | pause ms next ih => simp only [Task.bind, Ends, ih, List.cons_append]
  | giveWay next ih => simp only [Task.bind, Ends, ih, List.cons_append]
  | call c next ih => simp only [Task.bind, Ends, ih, List.cons_append]

/-- A task that goes on from what another ends with is told what that one is told, and then more. -/
@[simp] theorem ends_bind {f : α → Task R β} {Q : List (Answer R) → Option β → Prop} :
    (t >>= f).Ends Q ↔ t.Ends fun told r =>
      r.elim (Q told none) fun a => (f a).Ends fun more => Q (told ++ more) :=
  ends_taskBind

/-- A task that has ended is told nothing. -/
@[simp] theorem ends_done {a : α} : (done a : Task R α).Ends Q ↔ Q [] (some a) := Iff.rfl

/-- To end at once is to be told nothing. -/
@[simp] theorem ends_pure {a : α} : (pure a : Task R α).Ends Q ↔ Q [] (some a) := Iff.rfl

/-- To read the clock is to be told a time. -/
@[simp] theorem ends_now {Q : List (Answer R) → Option Nat → Prop} :
    (now : Task R Nat).Ends Q ↔ ∀ ms, Q [.time ms] (some ms) := Iff.rfl

/-- To read the stop flag is to be told what it reads. -/
@[simp] theorem ends_isStopped {Q : List (Answer R) → Option Bool → Prop} :
    (isStopped : Task R Bool).Ends Q ↔ ∀ b, Q [.flag b] (some b) := Iff.rfl

/-- To pause is to be told whether the pause was full. -/
@[simp] theorem ends_sleep {ms : Nat} {Q : List (Answer R) → Option Bool → Prop} :
    (sleep ms : Task R Bool).Ends Q ↔ ∀ full, Q [.rested full] (some full) := Iff.rfl

/-- A call ends as it is answered. -/
@[simp] theorem ends_ask {c : C} {Q : List (Answer R) → Option (R c) → Prop} :
    (ask c : Task R (R c)).Ends Q ↔ ∀ r, Q [.reply c r] r := by
  apply forall_congr'
  intro r
  cases r <;> exact Iff.rfl

/-- What is done at the end is told after all else, whether the task ends well or crashes. -/
theorem ends_ensuring {last : Task R Unit} :
    (t.ensuring last).Ends Q ↔ t.Ends fun told r =>
      last.Ends fun more ended => Q (told ++ more) (ended.bind fun _ => r) := by
  induction t generalizing Q with
  | done a =>
    rw [ensuring, ends_taskBind]
    apply iff_of_eq
    apply congrArg last.Ends
    funext more ended
    cases ended with
    | none => rfl
    | some _ => exact congrArg (Q · (some a)) (List.append_nil more)
  | crash =>
    rw [ensuring, ends_taskBind]
    apply iff_of_eq
    apply congrArg last.Ends
    funext more ended
    cases ended with
    | none => rfl
    | some _ => exact congrArg (Q · none) (List.append_nil more)
  | clock next ih => simp only [ensuring, Ends, ih, List.cons_append]
  | stopRequested next ih => simp only [ensuring, Ends, ih, List.cons_append]
  | pause ms next ih => simp only [ensuring, Ends, ih, List.cons_append]
  | giveWay next ih => simp only [ensuring, Ends, ih, List.cons_append]
  | call c next ih => simp only [ensuring, Ends, ih, List.cons_append]

/-- A task that makes only certain calls is told the replies to these. -/
theorem Only.ends {H : C → Prop} {P : α → Prop} (h : t.Only H P) :
    t.Ends fun told r => (∀ c ∈ told.filterMap Answer.call?, H c) ∧ ∀ a ∈ r, P a := by
  induction t with
  | done a => exact ⟨by simp, by simpa using h⟩
  | crash => exact ⟨by simp, by simp⟩
  | clock next ih => exact fun ms => ih ms (h ms)
  | stopRequested next ih => exact fun b => ih b (h b)
  | pause ms next ih => exact fun full => ih full (h full)
  | giveWay next ih => exact ih h
  | call c next ih =>
    intro r
    apply (ih r (h.2 r)).mono
    intro told r' hr
    exact ⟨List.forall_mem_cons.2 ⟨h.1, hr.1⟩, hr.2⟩

/-- A task that is alone with a service leaves a transcript. -/
theorem runAlone_yields {σ : Type} (s : Service R σ) (t : Task R α) (m : Moment σ) :
    ∃ told, t.Yields told (t.runAlone s m).1 := by
  induction t generalizing m with
  | done a => exact ⟨[], .done⟩
  | crash => exact ⟨[], .crash⟩
  | clock next ih => exact (ih _ m).imp' _ fun told => .clock
  | stopRequested next ih => exact (ih _ m).imp' _ fun told => .stopRequested
  | pause ms next ih => exact (ih _ _).imp' _ fun told => .pause
  | giveWay next ih => exact (ih m).imp' _ fun told => .giveWay
  | call c next ih => exact (ih _ _).imp' _ fun told => .call

end Ends

section Returns

variable {t : Task R α} {Q Q' : List (Answer R) → α → Prop}

/-- A task that yields a result returns it. -/
theorem Returns.of_yields {told : List (Answer R)} {a : α} (h : t.Returns Q)
    (ht : t.Yields told (some a)) : Q told a :=
  Ends.of_yields h ht a rfl

/-- Whatever result a task returns, it has been told what yields it. -/
theorem returns_yields (t : Task R α) : t.Returns fun told a => t.Yields told (some a) := by
  apply t.ends_yields.mono
  rintro told _ ht a rfl
  exact ht

/-- A task that returns something returns what follows from it. -/
theorem Returns.mono (h : t.Returns Q) (hQ : ∀ told a, Q told a → Q' told a) : t.Returns Q' :=
  Ends.mono h fun told _ hr a ha => hQ told a (hr a ha)

/-- A task that returns in two ways returns in both. -/
theorem Returns.and (h : t.Returns Q) (h' : t.Returns Q') :
    t.Returns fun told a => Q told a ∧ Q' told a :=
  (Ends.and h h').mono fun _ _ hr a ha => ⟨hr.1 a ha, hr.2 a ha⟩

/-- A task that makes only certain calls is told of no other, and returns what it should. -/
theorem Only.returns {H : C → Prop} {P : α → Prop} (h : t.Only H P) :
    t.Returns fun told a => (∀ c ∈ told.filterMap Answer.call?, H c) ∧ P a :=
  h.ends.mono fun _ _ hr a ha => ⟨hr.1, hr.2 a ha⟩

/-- What is true of every result, whatever the task was told, is true of its results. -/
theorem Returns.only {P : α → Prop} (h : t.Returns fun _ => P) : t.Only (fun _ => True) P := by
  induction t with
  | done a => exact h a rfl
  | crash => trivial
  | clock next ih => exact fun ms => ih ms (h ms)
  | stopRequested next ih => exact fun b => ih b (h b)
  | pause ms next ih => exact fun full => ih full (h full)
  | giveWay next ih => exact ih h
  | call c next ih => exact ⟨trivial, fun r => ih r (h r)⟩

/-- A task returns through a part what the rest of it returns from there. -/
theorem returns_taskBind {f : α → Task R β} {Q : List (Answer R) → β → Prop} :
    (t.bind f).Returns Q ↔ t.Returns fun told a => (f a).Returns fun more => Q (told ++ more) := by
  rw [Returns, ends_taskBind]
  apply iff_of_eq
  apply congrArg t.Ends
  funext told r
  cases r <;> simp [Returns]

/-- So it is with the bind of the monad, as far as results go. -/
@[simp] theorem returns_bind {f : α → Task R β} {Q : List (Answer R) → β → Prop} :
    (t >>= f).Returns Q ↔ t.Returns fun told a => (f a).Returns fun more => Q (told ++ more) :=
  returns_taskBind

/-- A task that has ended returns its result. -/
@[simp] theorem returns_done {a : α} : (done a : Task R α).Returns Q ↔ Q [] a := by
  simp [Returns]

/-- To end at once is to return the result. -/
@[simp] theorem returns_pure {a : α} : (pure a : Task R α).Returns Q ↔ Q [] a := returns_done

/-- To read the clock is to return a time. -/
@[simp] theorem returns_now {Q : List (Answer R) → Nat → Prop} :
    (now : Task R Nat).Returns Q ↔ ∀ ms, Q [.time ms] ms := by
  simp [Returns]

/-- To read the stop flag is to return what it reads. -/
@[simp] theorem returns_isStopped {Q : List (Answer R) → Bool → Prop} :
    (isStopped : Task R Bool).Returns Q ↔ ∀ b, Q [.flag b] b := by
  simp [Returns]

/-- To pause is to return whether the pause was full. -/
@[simp] theorem returns_sleep {ms : Nat} {Q : List (Answer R) → Bool → Prop} :
    (sleep ms : Task R Bool).Returns Q ↔ ∀ full, Q [.rested full] full := by
  simp [Returns]

/-- To ask is to return the reply. -/
@[simp] theorem returns_ask {c : C} {Q : List (Answer R) → R c → Prop} :
    (ask c : Task R (R c)).Returns Q ↔ ∀ a, Q [.reply c (some a)] a := by
  rw [Returns, ends_ask]
  constructor
  · exact fun h a => h (some a) a rfl
  · rintro h _ a rfl
    exact h a

/-- A task returns through its parts one after the other. -/
theorem Returns.bind {P : List (Answer R) → α → Prop} {f : α → Task R β}
    {Q : List (Answer R) → β → Prop} (h : t.Returns P)
    (hf : ∀ told a, P told a → (f a).Returns fun more => Q (told ++ more)) :
    (t >>= f).Returns Q :=
  returns_bind.2 (h.mono hf)

/-- To read the clock first is to be told a time first. -/
theorem Returns.now_bind {f : Nat → Task R β} {Q : List (Answer R) → β → Prop}
    (h : ∀ ms, (f ms).Returns fun more => Q (.time ms :: more)) : (now >>= f).Returns Q :=
  returns_bind.2 (returns_now.2 h)

/-- To read the stop flag first is to be told what it reads first. -/
theorem Returns.isStopped_bind {f : Bool → Task R β} {Q : List (Answer R) → β → Prop}
    (h : ∀ b, (f b).Returns fun more => Q (.flag b :: more)) : (isStopped >>= f).Returns Q :=
  returns_bind.2 (returns_isStopped.2 h)

/-- To pause first is to be told first whether the pause was full. -/
theorem Returns.sleep_bind {ms : Nat} {f : Bool → Task R β} {Q : List (Answer R) → β → Prop}
    (h : ∀ full, (f full).Returns fun more => Q (.rested full :: more)) :
    (sleep ms >>= f).Returns Q :=
  returns_bind.2 (returns_sleep.2 h)

/-- To ask first is to be told the reply first. -/
theorem Returns.ask_bind {c : C} {f : R c → Task R β} {Q : List (Answer R) → β → Prop}
    (h : ∀ a, (f a).Returns fun more => Q (.reply c (some a) :: more)) :
    (ask c >>= f).Returns Q :=
  returns_bind.2 (returns_ask.2 h)

/-- A task returns with one more thing to do what it returns before that. -/
theorem returns_ensuring {last : Task R Unit} :
    (t.ensuring last).Returns Q ↔
      t.Returns fun told a => last.Returns fun more _ => Q (told ++ more) a := by
  rw [Returns, ends_ensuring]
  apply iff_of_eq
  apply congrArg t.Ends
  funext told r
  apply propext
  cases r with
  | none =>
    refine ⟨fun _ _ => nofun, fun _ => ends_of_forall fun more ended _ => ?_⟩
    cases ended <;> exact nofun
  | some a =>
    simp only [Option.mem_def, Option.some.injEq, forall_eq', Returns]
    apply iff_of_eq
    apply congrArg last.Ends
    funext more ended
    cases ended <;> simp

end Returns

end Task

end DeviceSuite
