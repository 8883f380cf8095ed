import DeviceSuite.Proofs.Task.Exchanges
import DeviceSuite.Task.Retry

/-!
# What a task spends

The calls of a certain kind are counted against a bound that holds for a task from every moment on.
The bounds of two tasks that follow each other add up, and a retried operation may spend its own as
often as it may be attempted.
-/

namespace DeviceSuite

variable {C C' : Type} {R : C → Type} {R' : C' → Type} {α β ε σ : Type}

namespace Task

/-- With a service, a task makes no more than so many calls of a kind, and it crashes only if `X`
is true. -/
def Spends (t : Task R α) (s : Service R σ) (kind : C → Bool) (X : Prop) (k : Nat) : Prop :=
  ∀ m, t.Goes s m fun log r _ => (log.countP fun x => kind x.call) ≤ k ∧ (r = none → X)

variable {s : Service R σ} {kind : C → Bool} {X : Prop} {k l : Nat} {t : Task R α}

/-- A task that spends no more than so much spends no more than any greater amount. -/
theorem Spends.mono (h : t.Spends s kind X k) (hkl : k ≤ l) : t.Spends s kind X l :=
  fun m => (h m).mono fun _ _ _ hgo => ⟨Nat.le_trans hgo.1 hkl, hgo.2⟩

/-- To end at once spends nothing. -/
theorem spends_pure (a : α) : (pure a : Task R α).Spends s kind X k :=
  fun _ => ⟨Nat.zero_le _, nofun⟩

/-- A task spends what its parts do. -/
theorem Spends.taskBind {f : α → Task R β} (h : t.Spends s kind X k)
    (hf : ∀ a, (f a).Spends s kind X l) : (t.bind f).Spends s kind X (k + l) := by
  intro m
  rw [goes_taskBind]
  refine (h m).mono fun log r m' hgo => ?_
  cases r with
  | none => exact ⟨Nat.le_trans hgo.1 (Nat.le_add_right _ _), fun _ => hgo.2 rfl⟩
  | some a =>
    dsimp only [Option.elim]
    apply (hf a m').mono
    intro more r m' hmore
    refine ⟨?_, hmore.2⟩
    rw [List.countP_append]
    exact Nat.add_le_add hgo.1 hmore.1

/-- What two tasks spend one after the other adds up. -/
theorem Spends.bind {f : α → Task R β} (h : t.Spends s kind X k)
    (hf : ∀ a, (f a).Spends s kind X l) : (t >>= f).Spends s kind X (k + l) :=
  h.taskBind hf

/-- What follows may come for free. -/
theorem Spends.bind_free {f : α → Task R β} (h : t.Spends s kind X k)
    (hf : ∀ a, (f a).Spends s kind X 0) : (t >>= f).Spends s kind X k :=
  h.bind hf

/-- What goes before may be free. -/
theorem Spends.free_bind {f : α → Task R β} (h : t.Spends s kind X 0)
    (hf : ∀ a, (f a).Spends s kind X k) : (t >>= f).Spends s kind X k :=
  Nat.zero_add k ▸ h.bind hf

/-- To read the clock spends nothing. -/
theorem Spends.now_bind {f : Nat → Task R α} (h : ∀ ms, (f ms).Spends s kind X k) :
    (now >>= f).Spends s kind X k := fun m => h _ m

/-- To read the stop flag spends nothing. -/
theorem Spends.isStopped_bind {f : Bool → Task R α} (h : ∀ b, (f b).Spends s kind X k) :
    (isStopped >>= f).Spends s kind X k := fun m => h _ m

/-- To pause spends nothing. -/
theorem Spends.sleep_bind {ms : Nat} {f : Bool → Task R α} (h : ∀ b, (f b).Spends s kind X k) :
    (sleep ms >>= f).Spends s kind X k := fun _ => h _ _

/-- A call that is answered spends itself, if it is of the kind. -/
theorem spends_ask {c : C} (h : s.Replies (· = c)) :
    (ask c).Spends s kind X (kind c).toNat := by
  intro m
  obtain ⟨r, hr⟩ := h.exchange (m := m) rfl
  rw [goes_ask, hr, List.countP_singleton]
  refine ⟨?_, nofun⟩
  cases h : kind c <;> simp [Service.record, h]

/-- A retried operation spends what its attempts spend. -/
theorem spends_attempts {delayMs : Nat} {mayPass : ε → Bool} {onRetry : Nat → ε → Task R Unit}
    {operation : Nat → Task R (Except ε α)} (hop : ∀ i, (operation i).Spends s kind X k)
    (hhook : ∀ i e, (onRetry i e).Spends s kind X 0) (left i : Nat) :
    (attempts delayMs mayPass onRetry operation left i).Spends s kind X ((left + 1) * k) := by
  induction left generalizing i with
  | zero => exact (Nat.one_mul k).symm ▸ hop i
  | succ left ih =>
    rw [attempts, Nat.succ_mul, Nat.add_comm _ k]
    apply (hop i).bind
    intro r
    cases r with
    | ok a => exact spends_pure _
    | error e =>
      apply Spends.isStopped_bind
      intro stopped
      split
      · exact spends_pure _
      · apply (hhook i e).free_bind
        intro _
        apply Spends.sleep_bind
        intro full
        cases full with
        | true => exact ih (i + 1)
        | false => exact spends_pure _

/-- A retried operation spends no more than the policy allows. -/
theorem spends_retry (policy : RetryPolicy) (mayPass : ε → Bool)
    {operation : Nat → Task R (Except ε α)} (hop : ∀ i, (operation i).Spends s kind X k) :
    (retry policy mayPass operation).Spends s kind X (policy.attempts * k) := by
  have hattempts : policy.attempts - 1 + 1 = policy.attempts :=
    Nat.sub_add_cancel (Nat.le_max_left _ _)
  have hhook : ∀ (_ : Nat) (_ : ε), (done () : Task R Unit).Spends s kind X 0 :=
    fun _ _ => spends_pure ()
  exact hattempts ▸ spends_attempts hop hhook (policy.attempts - 1) 1

/-! ### Tasks among more kinds of calls -/

section

variable {place : C → C'} {reply : ∀ c, R' (place c) → R c} {s : Service R' σ}

/-- A task goes among more kinds of calls as it does among its own. -/
theorem runAlone_embed (t : Task R α) (m : Moment σ) :
    (t.embed place reply).runAlone s m = t.runAlone (s.along place reply) m := by
  induction t generalizing m with
  | done a => rfl
  | crash => rfl
  | clock next ih => exact ih _ m
  | stopRequested next ih => exact ih _ m
  | pause ms next ih => exact ih _ _
  | giveWay next ih => exact ih m
  | call c next ih => exact ih _ _

/-- A task makes as many calls among more kinds as it does among its own. -/
theorem countP_exchanges_embed (kind : C' → Bool) (t : Task R α) (m : Moment σ) :
    ((t.embed place reply).exchanges s m).countP (fun x => kind x.call) =
      (t.exchanges (s.along place reply) m).countP fun x => kind (place x.call) := by
  induction t generalizing m with
  | done a => rfl
  | crash => rfl
  | clock next ih => exact ih _ m
  | stopRequested next ih => exact ih _ m
  | pause ms next ih => exact ih _ _
  | giveWay next ih => exact ih m
  | call c next ih =>
    simp only [embed, exchanges, List.countP_cons, ih]
    rfl

/-- A task spends among more kinds of calls what it spends among its own. -/
theorem Spends.embed {kind : C' → Bool}
    (h : t.Spends (s.along place reply) (fun c => kind (place c)) X k) :
    (t.embed place reply).Spends s kind X k := by
  intro m
  rw [Goes, runAlone_embed, countP_exchanges_embed]
  exact h m

end

end Task

end DeviceSuite
