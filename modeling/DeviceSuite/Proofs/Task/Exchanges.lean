import DeviceSuite.Proofs.Task.Alone
import DeviceSuite.Task.Service

/-!
# The exchanges of a task alone

A task that is alone with a service makes its calls one after the other. Each of them is an
exchange: it begins at an instant, ends at a later one, and has a reply unless it has crashed.
How a task goes is told by its exchanges, its result and the moment at which it ends, and the rules
for that follow the shape of the task.
-/

namespace DeviceSuite

variable {C C' : Type} {R : C → Type} {R' : C' → Type} {α β σ : Type}

/-- A call that has been made, with the instants at which it began and ended. -/
structure Exchange {C : Type} (R : C → Type) where
  call : C
  began : Nat
  ended : Nat
  reply : Option (R call)

namespace Moment

variable {m : Moment σ}

/-- The stop flag is raised from the instant of the stop on. -/
theorem isStopped_iff : m.isStopped = true ↔ ∃ time ∈ m.stopAt, time ≤ m.now := by
  simp [isStopped, Option.any_eq_true]

/-- The stop flag is not raised as long as its instant has not come. -/
theorem isStopped_eq_false_iff : m.isStopped = false ↔ ∀ time ∈ m.stopAt, m.now < time := by
  rw [← Bool.not_eq_true, isStopped_iff]
  simp

/-- A pause that begins before the stop lasts until then, or else to its end. -/
theorem pause_of_free (hfree : m.isStopped = false) (ms : Nat) :
    (∃ time ∈ m.stopAt, m.now < time ∧ time ≤ m.now + ms ∧
      m.pause ms = (false, { m with now := time })) ∨
    (∀ time ∈ m.stopAt, m.now + ms < time) ∧
      m.pause ms = (true, { m with now := m.now + ms }) := by
  obtain ⟨now, stopAt, state⟩ := m
  cases stopAt with
  | none => exact .inr ⟨nofun, rfl⟩
  | some time =>
    have hafter : now < time := isStopped_eq_false_iff.1 hfree time rfl
    by_cases hbefore : time ≤ now + ms
    · exact .inl ⟨time, rfl, hafter, hbefore, by simp [pause, hfree, hbefore]⟩
    · refine .inr ⟨?_, by simp [pause, hfree, hbefore]⟩
      rintro _ ⟨⟩
      exact Nat.lt_of_not_le hbefore

/-- A pause does not go back in time. -/
theorem now_le_pause {ms : Nat} : m.now ≤ (m.pause ms).2.now := by
  cases hflag : m.isStopped with
  | true => simp [pause, hflag]
  | false =>
    obtain ⟨time, -, hafter, -, hpause⟩ | ⟨-, hpause⟩ := pause_of_free hflag ms
    · exact hpause ▸ Nat.le_of_lt hafter
    · exact hpause ▸ Nat.le_add_right _ _

end Moment

namespace Service

/-- The exchange of a call that begins at a moment. -/
def record (s : Service R σ) (m : Moment σ) (c : C) : Exchange R :=
  ⟨c, m.now, (s.exchange m c).2.now, (s.exchange m c).1⟩

/-- The service of a task whose calls stand for calls of another kind. -/
def along (s : Service R' σ) (place : C → C') (reply : ∀ c, R' (place c) → R c) :
    Service R σ where
  accept now state c := s.accept now state (place c)
  answer now state c :=
    ((s.answer now state (place c)).1, (s.answer now state (place c)).2.map (reply c))

/-- Every call of such a kind is answered. -/
def Replies (s : Service R σ) (H : C → Prop) : Prop :=
  ∀ now state c, H c → (s.answer now state c).2.isSome = true

variable {s : Service R σ} {m : Moment σ} {c : C}

/-- A call takes the time that the service says. -/
theorem now_exchange : (s.exchange m c).2.now = m.now + (s.accept m.now m.state c).latency := by
  have hstop : m.stop.now = m.now := by
    rw [Moment.stop]
    split <;> rfl
  simp only [exchange]
  split
  · rw [hstop]
  · rfl

/-- No time runs back while a call is under way. -/
theorem now_le_exchange : m.now ≤ (s.exchange m c).2.now :=
  now_exchange ▸ Nat.le_add_right _ _

/-- A call of a kind that is answered has a reply. -/
theorem Replies.exchange {H : C → Prop} (h : s.Replies H) (hc : H c) :
    ∃ r, (s.exchange m c).1 = some r :=
  Option.isSome_iff_exists.1 (h _ _ c hc)

/-- The calls that stand for others are answered if those are. -/
theorem Replies.along {s : Service R' σ} {H : C' → Prop} (h : s.Replies H) (place : C → C')
    (reply : ∀ c, R' (place c) → R c) : (s.along place reply).Replies fun c => H (place c) :=
  fun now state c hc => Option.isSome_map.trans (h now state (place c) hc)

end Service

namespace Task

/-- The exchanges of a task alone with a service, one after the other. -/
def exchanges (s : Service R σ) : Task R α → Moment σ → List (Exchange R)
  | done _, _ => []
  | crash, _ => []
  | clock next, m => (next m.now).exchanges s m
  | stopRequested next, m => (next m.isStopped).exchanges s m
  | pause ms next, m => (next (m.pause ms).1).exchanges s (m.pause ms).2
  | giveWay next, m => next.exchanges s m
  | call c next, m => s.record m c :: (next (s.exchange m c).1).exchanges s (s.exchange m c).2

/-- A task that is alone with a service from a moment on goes as `Q` says of its exchanges, its
result and the moment at which it ends; without a result it has crashed. -/
def Goes (s : Service R σ) (t : Task R α) (m : Moment σ)
    (Q : List (Exchange R) → Option α → Moment σ → Prop) : Prop :=
  Q (t.exchanges s m) (t.runAlone s m).1 (t.runAlone s m).2

variable {s : Service R σ} {t : Task R α} {m : Moment σ}
  {Q Q' : List (Exchange R) → Option α → Moment σ → Prop}

/-- A task that goes somehow does so by any weaker account. -/
theorem Goes.mono (h : t.Goes s m Q) (hQ : ∀ log r m', Q log r m' → Q' log r m') :
    t.Goes s m Q' :=
  hQ _ _ _ h

/-- A task goes through a part as the rest of it goes from there. -/
theorem goes_taskBind {f : α → Task R β}
    {Q : List (Exchange R) → Option β → Moment σ → Prop} :
    (t.bind f).Goes s m Q ↔ t.Goes s m fun log r m' =>
      r.elim (Q log none m') fun a => (f a).Goes s m' fun more => Q (log ++ more) := by
  induction t generalizing m Q with
  | done a => exact Iff.rfl
  | crash => exact Iff.rfl
  | clock next ih => exact ih _
  | stopRequested next ih => exact ih _
  | pause ms next ih => exact ih _
  | giveWay next ih => exact ih
  | call c next ih => exact ih _ (Q := fun log => Q (s.record m c :: log))

/-- A task that goes on from what another ends with makes the calls of that one, and then more. -/
theorem goes_bind {f : α → Task R β} {Q : List (Exchange R) → Option β → Moment σ → Prop} :
    (t >>= f).Goes s m Q ↔ t.Goes s m fun log r m' =>
      r.elim (Q log none m') fun a => (f a).Goes s m' fun more => Q (log ++ more) :=
  goes_taskBind

/-- A task that ends at once makes no call. -/
@[simp] theorem goes_pure {a : α} : (pure a : Task R α).Goes s m Q ↔ Q [] (some a) m := Iff.rfl

/-- To read the clock is to read the moment. -/
@[simp] theorem goes_now_bind {f : Nat → Task R α} :
    (now >>= f).Goes s m Q ↔ (f m.now).Goes s m Q := Iff.rfl

/-- To read the stop flag is to read the moment. -/
@[simp] theorem goes_isStopped_bind {f : Bool → Task R α} :
    (isStopped >>= f).Goes s m Q ↔ (f m.isStopped).Goes s m Q := Iff.rfl

/-- A pause leads to where it ends. -/
@[simp] theorem goes_sleep_bind {ms : Nat} {f : Bool → Task R α} :
    (sleep ms >>= f).Goes s m Q ↔ (f (m.pause ms).1).Goes s (m.pause ms).2 Q := Iff.rfl

/-- To let the others go first leads nowhere for a task that is alone. -/
@[simp] theorem goes_yield_bind {f : Unit → Task R α} :
    (yield >>= f).Goes s m Q ↔ (f ()).Goes s m Q := Iff.rfl

/-- A call is one exchange. -/
@[simp] theorem goes_ask {c : C} {Q : List (Exchange R) → Option (R c) → Moment σ → Prop} :
    (ask c).Goes s m Q ↔ Q [s.record m c] (s.exchange m c).1 (s.exchange m c).2 := by
  simp only [Goes, ask, exchanges, runAlone]
  rcases (s.exchange m c).1 with _ | r <;> exact Iff.rfl

/-- A call that is answered leads to where it is, with its exchange. -/
theorem goes_ask_bind {c : C} {f : R c → Task R α} {r : R c} (h : (s.exchange m c).1 = some r) :
    (ask c >>= f).Goes s m Q ↔
      (f r).Goes s (s.exchange m c).2 fun more => Q (s.record m c :: more) := by
  rw [goes_bind, goes_ask, h]
  rfl

/-- Every call that a task makes is an exchange with the service. -/
theorem exists_record {x : Exchange R} (hx : x ∈ t.exchanges s m) :
    ∃ m', x = s.record m' x.call := by
  induction t generalizing m with
  | done a => cases hx
  | crash => cases hx
  | clock next ih => exact ih _ hx
  | stopRequested next ih => exact ih _ hx
  | pause ms next ih => exact ih _ hx
  | giveWay next ih => exact ih hx
  | call c next ih =>
    rcases List.mem_cons.1 hx with rfl | hx
    · exact ⟨m, rfl⟩
    · exact ih _ hx

/-- No time runs back while a task goes on. -/
theorem now_le_runAlone (s : Service R σ) (t : Task R α) (m : Moment σ) :
    m.now ≤ (t.runAlone s m).2.now := by
  induction t generalizing m with
  | done a => exact Nat.le_refl _
  | crash => exact Nat.le_refl _
  | clock next ih => exact ih _ m
  | stopRequested next ih => exact ih _ m
  | pause ms next ih => exact Nat.le_trans Moment.now_le_pause (ih _ _)
  | giveWay next ih => exact ih m
  | call c next ih => exact Nat.le_trans Service.now_le_exchange (ih _ _)

end Task

end DeviceSuite
