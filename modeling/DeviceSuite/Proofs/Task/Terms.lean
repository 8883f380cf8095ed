import DeviceSuite.Task.Basic

/-!
# Terms between tasks

A task among others cannot know what the others do meanwhile. Its terms say what it may count on,
which calls it may make, and what may come of them, all told of a view of what the tasks share. A
task abides by its terms when it makes only calls that it may make and ends as promised, whatever
it is answered and whatever the others do while it stands.

The rules follow the shape of a task, so that a program is checked piece by piece. Nothing here
depends on how much time passes.
-/

namespace DeviceSuite

/-- How a call goes: it is begun at once or when its turn comes, and answered at once or in time. -/
inductive Pace where
  /-- Begun and answered at once. -/
  | instant
  /-- Begun at once and answered in time. -/
  | prompt
  /-- Begun when its turn comes, and then answered at once. -/
  | awaited
  /-- Begun when its turn comes, and answered in time. -/
  | queued
  deriving DecidableEq

namespace Pace

/-- Whether a call may have to wait until it begins. -/
def waits : Pace → Bool
  | awaited | queued => true
  | instant | prompt => false

/-- Whether a call that has begun may take time. -/
def lasts : Pace → Bool
  | prompt | queued => true
  | instant | awaited => false

end Pace

/-- The terms on which a task goes on among others; `V` are the views of what they share. -/
structure Terms {C : Type} (R : C → Type) (V : Type) where
  pace : C → Pace
  /-- What the stop flag may read. -/
  reads : V → Bool → Prop
  /-- What the others may do while the task stands. -/
  drifts : V → V → Prop
  /-- The calls that may be begun. -/
  may : V → C → Prop
  /-- What the beginning of a call may do. -/
  begins : V → C → V → Prop
  /-- What a call may be answered, and what the answer may do. -/
  answers : V → (c : C) → Option (R c) → V → Prop
  drifts_refl : ∀ v, drifts v v
  drifts_trans : ∀ {u v w}, drifts u v → drifts v w → drifts u w

namespace Terms

variable {C C' : Type} {R : C → Type} {R' : C' → Type} {V : Type} (T : Terms R V)

/-- The terms of a task that may do anything and counts on nothing. -/
def free : Terms R V where
  pace _ := .queued
  reads _ _ := True
  drifts _ _ := True
  may _ _ := True
  begins _ _ _ := True
  answers _ _ _ _ := True
  drifts_refl _ := trivial
  drifts_trans _ _ := trivial

/-- What may happen until a call begins. -/
def waits (c : C) (v v' : V) : Prop :=
  if (T.pace c).waits then T.drifts v v' else v' = v

/-- What may happen until a call that has begun is answered. -/
def lasts (c : C) (v v' : V) : Prop :=
  if (T.pace c).lasts then T.drifts v v' else v' = v

/-- A call may begin, and whatever comes of it is as wanted. -/
def Admits (c : C) (Q : V → Option (R c) → Prop) (v : V) : Prop :=
  T.may v c ∧ ∀ v₁ v₂ r v₃, T.begins v c v₁ → T.lasts c v₁ v₂ → T.answers v₂ c r v₃ → Q v₃ r

variable {T}

/-- What may happen until a call begins may happen anywhere. -/
theorem drifts_of_waits {c : C} {v v' : V} (h : T.waits c v v') : T.drifts v v' := by
  unfold waits at h
  split at h
  · exact h
  · exact h ▸ T.drifts_refl v

/-- What may happen until a call is answered may happen anywhere. -/
theorem drifts_of_lasts {c : C} {v v' : V} (h : T.lasts c v v') : T.drifts v v' := by
  unfold lasts at h
  split at h
  · exact h
  · exact h ▸ T.drifts_refl v

/-- A call that may begin for a purpose may begin for any weaker one. -/
theorem Admits.mono {c : C} {Q Q' : V → Option (R c) → Prop} {v : V}
    (h : T.Admits c Q v) (hQ : ∀ v r, Q v r → Q' v r) : T.Admits c Q' v :=
  ⟨h.1, fun v₁ v₂ r v₃ hb hl ha => hQ v₃ r (h.2 v₁ v₂ r v₃ hb hl ha)⟩

/-- The terms of a task whose calls stand for calls of another kind. -/
def along (T : Terms R' V) (place : C → C') (reply : ∀ c, R' (place c) → R c) : Terms R V where
  pace c := T.pace (place c)
  reads := T.reads
  drifts := T.drifts
  may v c := T.may v (place c)
  begins v c := T.begins v (place c)
  answers v c r v' := ∃ r', r = r'.map (reply c) ∧ T.answers v (place c) r' v'
  drifts_refl := T.drifts_refl
  drifts_trans := T.drifts_trans

end Terms

namespace Task

variable {C C' : Type} {R : C → Type} {R' : C' → Type} {α β V : Type}

/-- A task abides by its terms and ends as `Q` says; a task without a result has crashed. -/
def Abides (T : Terms R V) (Q : V → Option α → Prop) : Task R α → V → Prop
  | done a, v => Q v (some a)
  | crash, v => Q v none
  | clock next, v => ∀ ms, (next ms).Abides T Q v
  | stopRequested next, v => ∀ b, T.reads v b → (next b).Abides T Q v
  | pause _ next, v => ∀ v' b, T.drifts v v' → T.reads v' b → (next !b).Abides T Q v'
  | giveWay next, v => ∀ v', T.drifts v v' → next.Abides T Q v'
  | call c next, v =>
    ∀ v', T.waits c v v' → T.Admits c (fun v r => (next r).Abides T Q v) v'

/-- A task ends with a value as `I` says, or crashes as `X` says. -/
def Upon (X : V → Prop) (I : α → V → Prop) (v : V) : Option α → Prop
  | none => X v
  | some a => I a v

/-- A task makes only certain calls, and its result is a certain one unless it crashes. -/
def Only (H : C → Prop) (P : α → Prop) : Task R α → Prop
  | done a => P a
  | crash => True
  | clock next => ∀ ms, (next ms).Only H P
  | stopRequested next => ∀ b, (next b).Only H P
  | pause _ next => ∀ b, (next b).Only H P
  | giveWay next => next.Only H P
  | call c next => H c ∧ ∀ r, (next r).Only H P

section Abides

variable {T : Terms R V} {Q Q' : V → Option α → Prop} {t : Task R α} {v : V}

/-- A task that abides by its terms does so with any weaker end. -/
theorem Abides.mono (h : t.Abides T Q v) (hQ : ∀ v r, Q v r → Q' v r) : t.Abides T Q' v := by
  induction t generalizing v with
  | done a => exact hQ v _ h
  | crash => exact hQ v _ h
  | clock next ih => exact fun ms => ih ms (h ms)
  | stopRequested next ih => exact fun b hb => ih b (h b hb)
  | pause ms next ih => exact fun v' b hd hb => ih _ (h v' b hd hb)
  | giveWay next ih => exact fun v' hd => ih (h v' hd)
  | call c next ih => exact fun v' hw => (h v' hw).mono fun _ r => ih r

/-- A task abides by its terms through a part if the rest of it does from there. -/
theorem abides_taskBind {f : α → Task R β} {Q : V → Option β → Prop} :
    (t.bind f).Abides T Q v ↔
      t.Abides T (fun v r => r.elim (Q v none) fun a => (f a).Abides T Q v) v := by
  induction t generalizing v with
  | done a => exact Iff.rfl
  | crash => exact Iff.rfl
  | clock next ih => simp only [Task.bind, Abides, ih]
  | stopRequested next ih => simp only [Task.bind, Abides, ih]
  | pause ms next ih => simp only [Task.bind, Abides, ih]
  | giveWay next ih => simp only [Task.bind, Abides, ih]
  | call c next ih => simp only [Task.bind, Abides, Terms.Admits, ih]

/-- So it is with the bind of the monad, in which tasks are written. -/
@[simp] theorem abides_bind {f : α → Task R β} {Q : V → Option β → Prop} :
    (t >>= f).Abides T Q v ↔
      t.Abides T (fun v r => r.elim (Q v none) fun a => (f a).Abides T Q v) v :=
  abides_taskBind

/-- A task that goes on from what another ends with abides by its terms when both do. -/
theorem Abides.bind {f : α → Task R β} {X : V → Prop} {I : α → V → Prop} {J : β → V → Prop}
    (h : t.Abides T (Upon X I) v) (hf : ∀ a v, I a v → (f a).Abides T (Upon X J) v) :
    (t >>= f).Abides T (Upon X J) v := by
  apply abides_bind.2
  apply h.mono
  intro v r hr
  cases r with
  | none => exact hr
  | some a => exact hf a v hr

/-- A task abides by its terms through its parts one after the other. -/
theorem Abides.taskBind {f : α → Task R β} {X : V → Prop} {I : α → V → Prop} {J : β → V → Prop}
    (h : t.Abides T (Upon X I) v) (hf : ∀ a v, I a v → (f a).Abides T (Upon X J) v) :
    (t.bind f).Abides T (Upon X J) v :=
  h.bind hf

/-- A task that abides by its terms does so with weaker values and crashes. -/
theorem Abides.upon {X X' : V → Prop} {I I' : α → V → Prop} (h : t.Abides T (Upon X I) v)
    (hX : ∀ v, X v → X' v) (hI : ∀ a v, I a v → I' a v) : t.Abides T (Upon X' I') v := by
  apply h.mono
  intro v r hr
  cases r with
  | none => exact hX v hr
  | some a => exact hI a v hr

/-- To end at once is to end with the value. -/
@[simp] theorem abides_pure {a : α} : (pure a : Task R α).Abides T Q v ↔ Q v (some a) := Iff.rfl

/-- To have ended is to end with the value. -/
@[simp] theorem abides_done {a : α} : (done a : Task R α).Abides T Q v ↔ Q v (some a) := Iff.rfl

/-- To crash is to end without a value. -/
@[simp] theorem abides_crash : (crash : Task R α).Abides T Q v ↔ Q v none := Iff.rfl

/-- To read the clock is to end with any time. -/
@[simp] theorem abides_now {Q : V → Option Nat → Prop} :
    (now : Task R Nat).Abides T Q v ↔ ∀ ms, Q v (some ms) := Iff.rfl

/-- To read the stop flag is to end with what it may read. -/
@[simp] theorem abides_isStopped {Q : V → Option Bool → Prop} :
    (isStopped : Task R Bool).Abides T Q v ↔ ∀ b, T.reads v b → Q v (some b) := Iff.rfl

/-- A pause ends where the others have led, with what the stop flag may read there. -/
@[simp] theorem abides_sleep {ms : Nat} {Q : V → Option Bool → Prop} :
    (sleep ms : Task R Bool).Abides T Q v ↔
      ∀ v' b, T.drifts v v' → T.reads v' b → Q v' (some !b) := Iff.rfl

/-- To let the others go first ends where they have led. -/
@[simp] theorem abides_yield {Q : V → Option Unit → Prop} :
    (yield : Task R Unit).Abides T Q v ↔ ∀ v', T.drifts v v' → Q v' (some ()) := Iff.rfl

/-- A call abides by its terms if it may begin wherever its turn comes. -/
theorem abides_ask {c : C} {Q : V → Option (R c) → Prop} :
    (ask c : Task R (R c)).Abides T Q v ↔ ∀ v', T.waits c v v' → T.Admits c Q v' := by
  constructor
  · intro h v' hw
    exact (h v' hw).mono fun v r hr => by cases r <;> exact hr
  · intro h v' hw
    exact (h v' hw).mono fun v r hr => by cases r <;> exact hr

/-- A task that reads the clock goes on whatever it reads. -/
theorem Abides.now_bind {f : Nat → Task R β} {Q : V → Option β → Prop}
    (h : ∀ ms, (f ms).Abides T Q v) : (now >>= f).Abides T Q v := h

/-- A task abides by its terms after it has read the flag if it does whatever that may read. -/
theorem Abides.isStopped_bind {f : Bool → Task R β} {Q : V → Option β → Prop}
    (h : ∀ b, T.reads v b → (f b).Abides T Q v) : (isStopped >>= f).Abides T Q v := h

/-- A task abides by its terms after a pause if it does wherever the others have led. -/
theorem Abides.sleep_bind {ms : Nat} {f : Bool → Task R β} {Q : V → Option β → Prop}
    (h : ∀ v' b, T.drifts v v' → T.reads v' b → (f !b).Abides T Q v') :
    (sleep ms >>= f).Abides T Q v := h

/-- A task abides by its terms after the others if it does wherever they have led. -/
theorem Abides.yield_bind {f : Unit → Task R β} {Q : V → Option β → Prop}
    (h : ∀ v', T.drifts v v' → (f ()).Abides T Q v') : (yield >>= f).Abides T Q v := h

/-- What is done at the end is done whether the task ends well or crashes. -/
theorem abides_ensuring {last : Task R Unit} :
    (t.ensuring last).Abides T Q v ↔
      t.Abides T (fun v r => last.Abides T (fun v ended => Q v (ended.bind fun _ => r)) v) v := by
  induction t generalizing v with
  | done a =>
    rw [ensuring, abides_taskBind]
    apply iff_of_eq
    apply congrArg fun q => last.Abides T q v
    funext v r
    cases r <;> rfl
  | crash =>
    rw [ensuring, abides_taskBind]
    apply iff_of_eq
    apply congrArg fun q => last.Abides T q v
    funext v r
    cases r <;> rfl
  | clock next ih => simp only [Task.ensuring, Abides, ih]
  | stopRequested next ih => simp only [Task.ensuring, Abides, ih]
  | pause ms next ih => simp only [Task.ensuring, Abides, ih]
  | giveWay next ih => simp only [Task.ensuring, Abides, ih]
  | call c next ih => simp only [Task.ensuring, Abides, Terms.Admits, ih]

/-- A task abides by its terms with one more thing to do if that does, whether the task ends well or
crashes. -/
theorem Abides.ensuring {last : Task R Unit} {X X' : V → Prop} {I J : α → V → Prop}
    (h : t.Abides T (Upon X I) v) (hX : ∀ v, X v → last.Abides T (Upon X' fun _ => X') v)
    (hI : ∀ a v, I a v → last.Abides T (Upon X' fun _ => J a) v) :
    (t.ensuring last).Abides T (Upon X' J) v := by
  apply abides_ensuring.2
  apply h.mono
  intro v r hr
  cases r with
  | none => exact (hX v hr).mono fun v ended hended => by cases ended <;> exact hended
  | some a => exact (hI a v hr).mono fun v ended hended => by cases ended <;> exact hended

/-- A task among more kinds of calls abides by the terms by which it abides among its own. -/
theorem abides_embed {T : Terms R' V} {place : C → C'} {reply : ∀ c, R' (place c) → R c}
    (h : t.Abides (T.along place reply) Q v) : (t.embed place reply).Abides T Q v := by
  induction t generalizing v with
  | done a => exact h
  | crash => exact h
  | clock next ih => exact fun ms => ih ms (h ms)
  | stopRequested next ih => exact fun b hb => ih b (h b hb)
  | pause ms next ih => exact fun v' b hd hb => ih _ (h v' b hd hb)
  | giveWay next ih => exact fun v' hd => ih (h v' hd)
  | call c next ih =>
    intro v' hw
    obtain ⟨hmay, hnext⟩ := h v' hw
    exact ⟨hmay, fun v₁ v₂ r v₃ hb hl ha => ih _ (hnext v₁ v₂ _ v₃ hb hl ⟨r, rfl, ha⟩)⟩

/-- A call of a task is, among more kinds of calls, the call that it stands for. -/
theorem abides_along {T : Terms R' V} {place : C → C'} {reply : ∀ c, R' (place c) → R c} {c : C}
    {Q : V → Option (R c) → Prop}
    (h : (ask (place c)).Abides T (fun v r => Q v (r.map (reply c))) v) :
    (ask c).Abides (T.along place reply) Q v := by
  apply abides_ask.2
  intro v' hw
  obtain ⟨hmay, hQ⟩ := abides_ask.1 h v' hw
  refine ⟨hmay, ?_⟩
  intro v₁ v₂ r v₃ hb hl ha
  obtain ⟨r', rfl, hr⟩ := ha
  exact hQ v₁ v₂ r' v₃ hb hl hr

/-- A task that may do anything and promises nothing abides by its terms. -/
theorem abides_free (hQ : ∀ v r, Q v r) : t.Abides .free Q v := by
  induction t generalizing v with
  | done a => exact hQ _ _
  | crash => exact hQ _ _
  | clock next ih => exact fun ms => ih ms
  | stopRequested next ih => exact fun b _ => ih b
  | pause ms next ih => exact fun v' b _ _ => ih _
  | giveWay next ih => exact fun v' _ => ih
  | call c next ih => exact fun v' _ => ⟨trivial, fun _ _ r _ _ _ _ => ih r⟩

end Abides

section Only

variable {H : C → Prop} {P P' : α → Prop} {t : Task R α}

/-- A task may make any calls. -/
theorem only_any (t : Task R α) : t.Only (fun _ => True) fun _ => True := by
  induction t with
  | done a => trivial
  | crash => trivial
  | clock next ih => exact ih
  | stopRequested next ih => exact ih
  | pause ms next ih => exact ih
  | giveWay next ih => exact ih
  | call c next ih => exact ⟨trivial, ih⟩

/-- A task that makes only certain calls does so with any weaker result. -/
theorem Only.mono (h : t.Only H P) (hP : ∀ a, P a → P' a) : t.Only H P' := by
  induction t with
  | done a => exact hP a h
  | crash => trivial
  | clock next ih => exact fun ms => ih ms (h ms)
  | stopRequested next ih => exact fun b => ih b (h b)
  | pause ms next ih => exact fun b => ih b (h b)
  | giveWay next ih => exact ih h
  | call c next ih => exact ⟨h.1, fun r => ih r (h.2 r)⟩

/-- A task that makes only certain calls makes only those of a wider kind. -/
theorem Only.weaken {H' : C → Prop} (h : t.Only H P) (hH : ∀ c, H c → H' c) : t.Only H' P := by
  induction t with
  | done a => exact h
  | crash => trivial
  | clock next ih => exact fun ms => ih ms (h ms)
  | stopRequested next ih => exact fun b => ih b (h b)
  | pause ms next ih => exact fun b => ih b (h b)
  | giveWay next ih => exact ih h
  | call c next ih => exact ⟨hH c h.1, fun r => ih r (h.2 r)⟩

/-- A task that makes only calls of two kinds makes only those of both. -/
theorem Only.and {H' : C → Prop} (h : t.Only H P) (h' : t.Only H' P') :
    t.Only (fun c => H c ∧ H' c) fun a => P a ∧ P' a := by
  induction t with
  | done a => exact ⟨h, h'⟩
  | crash => trivial
  | clock next ih => exact fun ms => ih ms (h ms) (h' ms)
  | stopRequested next ih => exact fun b => ih b (h b) (h' b)
  | pause ms next ih => exact fun b => ih b (h b) (h' b)
  | giveWay next ih => exact ih h h'
  | call c next ih => exact ⟨⟨h.1, h'.1⟩, fun r => ih r (h.2 r) (h'.2 r)⟩

/-- A task makes only certain calls through a part if the rest of it does from there. -/
theorem only_taskBind {f : α → Task R β} {P : β → Prop} :
    (t.bind f).Only H P ↔ t.Only H fun a => (f a).Only H P := by
  induction t with
  | done a => exact Iff.rfl
  | crash => exact Iff.rfl
  | clock next ih => simp only [Task.bind, Only, ih]
  | stopRequested next ih => simp only [Task.bind, Only, ih]
  | pause ms next ih => simp only [Task.bind, Only, ih]
  | giveWay next ih => simp only [Task.bind, Only, ih]
  | call c next ih => simp only [Task.bind, Only, ih]

/-- So it is with the bind of the monad, as far as calls go. -/
@[simp] theorem only_bind {f : α → Task R β} {P : β → Prop} :
    (t >>= f).Only H P ↔ t.Only H fun a => (f a).Only H P :=
  only_taskBind

/-- To end at once makes no call. -/
@[simp] theorem only_pure {a : α} : (pure a : Task R α).Only H P ↔ P a := Iff.rfl

/-- To have ended makes no call. -/
@[simp] theorem only_done {a : α} : (done a : Task R α).Only H P ↔ P a := Iff.rfl

/-- To read the clock makes no call. -/
@[simp] theorem only_now {P : Nat → Prop} : (now : Task R Nat).Only H P ↔ ∀ ms, P ms := Iff.rfl

/-- To read the stop flag makes no call. -/
@[simp] theorem only_isStopped {P : Bool → Prop} :
    (isStopped : Task R Bool).Only H P ↔ ∀ b, P b := Iff.rfl

/-- To ask makes one call. -/
theorem only_ask {c : C} {P : R c → Prop} : (ask c : Task R (R c)).Only H P ↔ H c ∧ ∀ r, P r := by
  apply and_congr_right
  intro _
  constructor
  · intro h r
    exact h (some r)
  · intro h r
    cases r with
    | none => trivial
    | some r => exact h r

/-- A task makes only certain calls with one more thing to do if that does. -/
theorem Only.ensuring {last : Task R Unit} (h : t.Only H P) (hlast : last.Only H fun _ => True) :
    (t.ensuring last).Only H P := by
  induction t with
  | done a => exact only_taskBind.2 (hlast.mono fun _ _ => h)
  | crash => exact only_taskBind.2 (hlast.mono fun _ _ => trivial)
  | clock next ih => exact fun ms => ih ms (h ms)
  | stopRequested next ih => exact fun b => ih b (h b)
  | pause ms next ih => exact fun b => ih b (h b)
  | giveWay next ih => exact ih h
  | call c next ih => exact ⟨h.1, fun r => ih r (h.2 r)⟩

/-- A task among more kinds of calls makes only the calls that its own stand for. -/
theorem only_embed {H : C' → Prop} {place : C → C'} {reply : ∀ c, R' (place c) → R c}
    (hplace : ∀ c, H (place c)) (hP : ∀ a, P a) : (t.embed place reply).Only H P := by
  induction t with
  | done a => exact hP a
  | crash => trivial
  | clock next ih => exact fun ms => ih ms
  | stopRequested next ih => exact fun b => ih b
  | pause ms next ih => exact fun b => ih b
  | giveWay next ih => exact ih
  | call c next ih => exact ⟨hplace c, fun r => ih _⟩

/-- What the calls of a task and the others keep, the task keeps. -/
theorem Only.abides {T : Terms R V} {J : V → Prop} {v : V} (h : t.Only H P)
    (hdrifts : ∀ v v', J v → T.drifts v v' → J v')
    (hcall : ∀ c v, H c → J v → T.Admits c (fun v _ => J v) v) (hv : J v) :
    t.Abides T (Upon J fun a v => P a ∧ J v) v := by
  induction t generalizing v with
  | done a => exact ⟨h, hv⟩
  | crash => exact hv
  | clock next ih => exact fun ms => ih ms (h ms) hv
  | stopRequested next ih => exact fun b _ => ih b (h b) hv
  | pause ms next ih => exact fun v' b hd _ => ih _ (h _) (hdrifts v v' hv hd)
  | giveWay next ih => exact fun v' hd => ih h (hdrifts v v' hv hd)
  | call c next ih =>
    intro v' hw
    have hv' := hdrifts v v' hv (Terms.drifts_of_waits hw)
    exact (hcall c v' h.1 hv').mono fun _ r hr => ih r (h.2 r) hr

end Only

end Task

end DeviceSuite
