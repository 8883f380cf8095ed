import DeviceSuite.Task.Basic

/-!
# Strands

A strand is a task among others that share their surroundings, the host. It goes on by itself as
far as it can; where it pauses, waits or makes a call that takes time, it stands until the host
says that it is able to go on. Whatever the host does, a strand goes on only finitely often:
`follows_wf`.
-/

namespace DeviceSuite

/-- Where a task among others stands. -/
inductive Strand {C : Type} (R : C → Type) (α : Type) where
  | ready (task : Task R α)
  | resting (due : Nat) (next : Bool → Task R α)
  /-- A call that the host does not admit yet. -/
  | waiting (c : C) (next : Option (R c) → Task R α)
  /-- A call that is answered when it is due. -/
  | calling (due : Nat) (c : C) (next : Option (R c) → Task R α)
  | ended (result : Option α)

/-- What tasks share, each known to it by a label. A call is announced; once it is admitted it is
accepted, takes the time that the host says, and is answered. -/
structure Host {C : Type} (R : C → Type) (α L σ : Type) where
  now : σ → Nat
  atTime : Nat → σ → σ
  isStopped : σ → L → Bool
  announce : σ → L → C → σ
  admits : σ → L → C → Bool
  accept : σ → L → C → σ × Nat
  answer : σ → L → (c : C) → σ × Option (R c)
  /-- A task has ended, with a result unless it crashed. -/
  finish : σ → L → Option α → σ

variable {C : Type} {R : C → Type} {α L σ : Type}

namespace Strand

/-- The instant at which a strand goes on at the latest, if that is known. -/
def due? : Strand R α → Option Nat
  | resting due _ | calling due _ _ => some due
  | _ => none

/-- The result of a strand that has ended. -/
def result? : Strand R α → Option (Option α)
  | ended result => some result
  | _ => none

end Strand

namespace Host

/-- Begin a call that is admitted: its reply, if it comes at once, or else when it is due. -/
def take (h : Host R α L σ) (s : σ) (l : L) (c : C) : σ × (Nat ⊕ Option (R c)) :=
  let (s, ms) := h.accept s l c
  if ms = 0 then
    let (s, reply) := h.answer s l c
    (s, .inr reply)
  else (s, .inl (h.now s + ms))

/-- Carry a task on as far as it goes by itself. -/
def carry (h : Host R α L σ) (l : L) : Task R α → σ → σ × Strand R α
  | .done a, s => (h.finish s l (some a), .ended (some a))
  | .crash, s => (h.finish s l none, .ended none)
  | .clock next, s => h.carry l (next (h.now s)) s
  | .stopRequested next, s => h.carry l (next (h.isStopped s l)) s
  | .pause ms next, s =>
    if h.isStopped s l then h.carry l (next false) s
    else if ms = 0 then h.carry l (next true) s
    else (s, .resting (h.now s + ms) next)
  | .giveWay next, s => (s, .ready next)
  | .call c next, s =>
    let s := h.announce s l c
    if h.admits s l c then
      match h.take s l c with
      | (s, .inl due) => (s, .calling due c next)
      | (s, .inr reply) => h.carry l (next reply) s
    else (s, .waiting c next)

/-- Whether a strand is able to go on. -/
def isAble (h : Host R α L σ) (s : σ) (l : L) : Strand R α → Bool
  | .ready _ => true
  | .resting due _ => h.isStopped s l || due ≤ h.now s
  | .waiting c _ => h.admits s l c
  | .calling due _ _ => due ≤ h.now s
  | .ended _ => false

/-- Let a strand that is able go on. -/
def resume (h : Host R α L σ) (l : L) : Strand R α → σ → σ × Strand R α
  | .ready task, s => h.carry l task s
  | .resting _ next, s => h.carry l (next !(h.isStopped s l)) s
  | .waiting c next, s =>
    match h.take s l c with
    | (s, .inl due) => (s, .calling due c next)
    | (s, .inr reply) => h.carry l (next reply) s
  | .calling _ c next, s =>
    let (s, reply) := h.answer s l c
    h.carry l (next reply) s
  | .ended result, s => (s, .ended result)

/-- One strand comes from another that was able to go on. -/
def Follows (h : Host R α L σ) (later earlier : Strand R α) : Prop :=
  ∃ s l, h.isAble s l earlier ∧ (h.resume l earlier s).2 = later

variable (h : Host R α L σ)

/-- A strand that has ended goes on no more. -/
theorem acc_ended (result : Option α) : Acc h.Follows (.ended result) :=
  ⟨_, fun _ ⟨_, _, able, _⟩ => by simp [isAble] at able⟩

/-- What comes of carrying a task on follows the task. -/
theorem acc_carry {task : Task R α} (acc : Acc h.Follows (.ready task)) (l : L) (s : σ) :
    Acc h.Follows (h.carry l task s).2 :=
  acc.inv ⟨s, l, rfl, rfl⟩

/-- A call goes on only finitely often if all that comes after its reply does. -/
theorem acc_calling {due : Nat} {c : C} {next : Option (R c) → Task R α}
    (acc : ∀ r, Acc h.Follows (.ready (next r))) : Acc h.Follows (.calling due c next) :=
  ⟨_, fun _ ⟨_, l, _, e⟩ => e ▸ h.acc_carry (acc _) l _⟩

/-- A call that has been taken is followed by what its task does next. -/
theorem acc_take {c : C} {next : Option (R c) → Task R α}
    (acc : ∀ r, Acc h.Follows (.ready (next r))) (l : L) (s : σ) :
    Acc h.Follows (match h.take s l c with
      | (_, .inl due) => .calling due c next
      | (s, .inr reply) => (h.carry l (next reply) s).2) := by
  rcases h.take s l c with ⟨s, due | reply⟩
  · exact h.acc_calling acc
  · exact h.acc_carry (acc _) l s

/-- A waiting strand goes on only finitely often if all that comes after its reply does. -/
theorem acc_waiting {c : C} {next : Option (R c) → Task R α}
    (acc : ∀ r, Acc h.Follows (.ready (next r))) : Acc h.Follows (.waiting c next) := by
  refine ⟨_, fun _ ⟨s, l, _, e⟩ => e ▸ ?_⟩
  have taken := h.acc_take acc l s
  simp only [resume]
  rcases hm : h.take s l c with ⟨s', due | reply⟩
  · simpa [hm] using taken
  · simpa [hm] using taken

/-- A task goes on only finitely often, whatever it is told. -/
theorem acc_ready (task : Task R α) : Acc h.Follows (.ready task) := by
  induction task with
  | done a => exact ⟨_, fun _ ⟨_, _, _, e⟩ => e ▸ h.acc_ended _⟩
  | crash => exact ⟨_, fun _ ⟨_, _, _, e⟩ => e ▸ h.acc_ended _⟩
  | clock next ih => exact ⟨_, fun _ ⟨s, l, _, e⟩ => e ▸ h.acc_carry (ih _) l s⟩
  | stopRequested next ih => exact ⟨_, fun _ ⟨s, l, _, e⟩ => e ▸ h.acc_carry (ih _) l s⟩
  | pause ms next ih =>
    refine ⟨_, fun _ ⟨s, l, _, e⟩ => e ▸ ?_⟩
    simp only [resume, carry]
    split
    · exact h.acc_carry (ih _) l s
    · split
      · exact h.acc_carry (ih _) l s
      · exact ⟨_, fun _ ⟨s, l, _, e⟩ => e ▸ h.acc_carry (ih _) l s⟩
  | giveWay next ih => exact ⟨_, fun _ ⟨_, _, _, e⟩ => e ▸ ih⟩
  | call c next ih =>
    refine ⟨_, fun _ ⟨s, l, _, e⟩ => e ▸ ?_⟩
    simp only [resume, carry]
    split
    · have taken := h.acc_take ih l (h.announce s l c)
      rcases hm : h.take (h.announce s l c) l c with ⟨s', due | reply⟩
      · simpa [hm] using taken
      · simpa [hm] using taken
    · exact h.acc_waiting ih

/-- A strand goes on only finitely often. -/
theorem follows_wf : WellFounded h.Follows := by
  refine ⟨fun strand => ?_⟩
  cases strand with
  | ready task => exact h.acc_ready task
  | resting due next =>
    exact ⟨_, fun _ ⟨s, l, _, e⟩ => e ▸ h.acc_carry (h.acc_ready _) l s⟩
  | waiting c next => exact h.acc_waiting fun _ => h.acc_ready _
  | calling due c next => exact h.acc_calling fun _ => h.acc_ready _
  | ended result => exact h.acc_ended result

end Host

end DeviceSuite
