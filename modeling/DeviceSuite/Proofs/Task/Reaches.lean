import DeviceSuite.Proofs.Task.Spending

/-!
# What a task comes to, and when

Often only the result of a task matters, and the moment at which it is there: how long a step took,
and not what it asked for. What a task reaches alone with a service is told by rules that follow its
shape, and a task that crashes reaches nothing.
-/

namespace DeviceSuite

namespace Task

variable {C C' : Type} {R : C → Type} {R' : C' → Type} {α β σ : Type}

/-- Where a task alone with a service has a result, `Q` is true of it and of the moment at which it
is there. -/
def Reaches (s : Service R σ) (t : Task R α) (m : Moment σ) (Q : α → Moment σ → Prop) : Prop :=
  ∀ a, (t.runAlone s m).1 = some a → Q a (t.runAlone s m).2

variable {s : Service R σ} {t : Task R α} {m : Moment σ} {Q Q' : α → Moment σ → Prop}

/-- A task that reaches something reaches what follows from it. -/
theorem Reaches.mono (h : t.Reaches s m Q) (hQ : ∀ a m', Q a m' → Q' a m') : t.Reaches s m Q' :=
  fun a ha => hQ _ _ (h a ha)

/-- No time runs back before the result is there. -/
theorem Reaches.later (h : t.Reaches s m Q) : t.Reaches s m fun a m' => m.now ≤ m'.now ∧ Q a m' :=
  fun a ha => ⟨now_le_runAlone s t m, h a ha⟩

/-- A task does not go back in time. -/
theorem reaches_later (s : Service R σ) (t : Task R α) (m : Moment σ) :
    t.Reaches s m fun _ m' => m.now ≤ m'.now :=
  fun _ _ => now_le_runAlone s t m

/-- What is true of how a task goes is true of what it reaches. -/
theorem Goes.reaches (h : t.Goes s m fun _ r m' => ∀ a ∈ r, Q a m') : t.Reaches s m Q := h

/-- A task reaches through a part what the rest of it reaches from there. -/
theorem reaches_taskBind {f : α → Task R β} {Q : β → Moment σ → Prop} :
    (t.bind f).Reaches s m Q ↔ t.Reaches s m fun a m' => (f a).Reaches s m' Q := by
  induction t generalizing m with
  | done a => exact ⟨fun h _ ha => Option.some.inj ha ▸ h, fun h => h a rfl⟩
  | crash => exact iff_of_true nofun nofun
  | clock next ih => exact ih _
  | stopRequested next ih => exact ih _
  | pause ms next ih => exact ih _
  | giveWay next ih => exact ih
  | call c next ih => exact ih _

/-- What a task reaches that goes on from what another reaches. -/
theorem reaches_bind {f : α → Task R β} {Q : β → Moment σ → Prop} :
    (t >>= f).Reaches s m Q ↔ t.Reaches s m fun a m' => (f a).Reaches s m' Q :=
  reaches_taskBind

/-- A task that ends at once reaches its result. -/
@[simp] theorem reaches_pure {a : α} : (pure a : Task R α).Reaches s m Q ↔ Q a m :=
  ⟨fun h => h a rfl, fun h _ ha => Option.some.inj ha ▸ h⟩

/-- A task that has ended reaches its result. -/
@[simp] theorem reaches_done {a : α} : (done a : Task R α).Reaches s m Q ↔ Q a m := reaches_pure

/-- To read the stop flag is to reach what it reads. -/
@[simp] theorem reaches_isStopped {Q : Bool → Moment σ → Prop} :
    (isStopped : Task R Bool).Reaches s m Q ↔ Q m.isStopped m :=
  ⟨fun h => h _ rfl, fun h _ ha => Option.some.inj ha ▸ h⟩

/-- To read the clock is to reach the moment. -/
@[simp] theorem reaches_now_bind {f : Nat → Task R α} :
    (now >>= f).Reaches s m Q ↔ (f m.now).Reaches s m Q := Iff.rfl

/-- A pause reaches where it ends. -/
@[simp] theorem reaches_sleep_bind {ms : Nat} {f : Bool → Task R α} :
    (sleep ms >>= f).Reaches s m Q ↔ (f (m.pause ms).1).Reaches s (m.pause ms).2 Q := Iff.rfl

/-- A task reaches among more kinds of calls what it reaches among its own. -/
theorem reaches_embed {place : C → C'} {reply : ∀ c, R' (place c) → R c} {s : Service R' σ} :
    (t.embed place reply).Reaches s m Q ↔ t.Reaches (s.along place reply) m Q := by
  rw [Reaches, runAlone_embed]
  rfl

end Task

end DeviceSuite
