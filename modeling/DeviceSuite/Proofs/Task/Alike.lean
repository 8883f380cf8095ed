import DeviceSuite.Proofs.Task.Alone

/-!
# Tasks that are alike

Two tasks are alike when each of them, on its own, comes to the same as the other. They need not
begin at the same time, nor in the same surroundings: time is counted in each from a start of its
own, and they are compared at moments that are equally far from it. So a task is alike to itself
begun at another time if it never asks what time it is but only how much has passed.
-/

namespace DeviceSuite

variable {C C' : Type} {R : C → Type} {R' : C' → Type} {α α' β β' τ : Type}

/-- Two instants are equally far from their starts. -/
def Level (start start' a b : Nat) : Prop := ∃ k, a = start + k ∧ b = start' + k

/-- Two moments go together: as much time has passed, as much is left until the stop, and the state
is the same. -/
structure Moment.Meets (start start' : Nat) (m m' : Moment τ) : Prop where
  level : Level start start' m.now m'.now
  stop : ∃ stop : Option Nat, m.stopAt = stop.map (start + ·) ∧ m'.stopAt = stop.map (start' + ·)
  state : m.state = m'.state

section

variable {start start' a b a' b' : Nat} {m m' : Moment τ}

/-- As much time has passed from one instant to another. -/
theorem Level.sub (h : Level start start' a b) (h' : Level start start' a' b') :
    a' - a = b' - b := by
  obtain ⟨k, rfl, rfl⟩ := h
  obtain ⟨k', rfl, rfl⟩ := h'
  omega

/-- Equally far instants are so after the same time. -/
theorem Level.add (h : Level start start' a b) (ms : Nat) :
    Level start start' (a + ms) (b + ms) := by
  obtain ⟨k, rfl, rfl⟩ := h
  exact ⟨k + ms, Nat.add_assoc .., Nat.add_assoc ..⟩

namespace Moment.Meets

/-- Moments that go together have the same flag. -/
theorem isStopped (h : m.Meets start start' m') : m.isStopped = m'.isStopped := by
  obtain ⟨⟨k, hnow, hnow'⟩, ⟨stop, hstop, hstop'⟩, -⟩ := h
  simp only [Moment.isStopped, hnow, hnow', hstop, hstop']
  cases stop <;> simp

/-- Moments that go together still do so some time later. -/
theorem later (h : m.Meets start start' m') (ms : Nat) :
    { m with now := m.now + ms }.Meets start start' { m' with now := m'.now + ms } :=
  ⟨h.level.add ms, h.stop, h.state⟩

/-- A pause is as long for one as for the other. -/
theorem pause (h : m.Meets start start' m') (ms : Nat) :
    (m.pause ms).1 = (m'.pause ms).1 ∧ (m.pause ms).2.Meets start start' (m'.pause ms).2 := by
  have hlater := h.later ms
  obtain ⟨⟨k, hnow, hnow'⟩, ⟨stop, hstop, hstop'⟩, hstate⟩ := id h
  rw [Moment.pause, Moment.pause, h.isStopped]
  split
  · exact ⟨rfl, h⟩
  · cases stop with
    | none =>
      simp only [hstop, hstop', Option.map_none] at hlater ⊢
      exact ⟨trivial, hlater⟩
    | some t =>
      have hle : start + t ≤ m.now + ms ↔ start' + t ≤ m'.now + ms := by omega
      simp only [hstop, hstop', Option.map_some, hle] at hlater ⊢
      split
      · exact ⟨rfl, ⟨t, rfl, rfl⟩, ⟨some t, rfl, rfl⟩, hstate⟩
      · exact ⟨rfl, hlater⟩

end Moment.Meets

end

/-- A call is replied to without anything happening. -/
def Surroundings.Idles (S : Surroundings R τ) (c : C) : Prop :=
  ∀ m r m', S.replies c m r m' → m' = m ∧ ∃ a, r = some a

/-- Two surroundings, each with the instant from which time is counted in it. -/
structure Comparison {C : Type} (R : C → Type) (τ : Type) where
  left : Surroundings R τ
  right : Surroundings R τ
  start : Nat
  start' : Nat

/-- Two calls are replied to alike. -/
def Comparison.Replies (K : Comparison R τ) (c c' : C) (E : R c → R c' → Prop) : Prop :=
  ∀ m m' r m₁ r' m₁', m.Meets K.start K.start' m' → K.left.replies c m r m₁ →
    K.right.replies c' m' r' m₁' → m₁.Meets K.start K.start' m₁' ∧ Option.Rel E r r'

namespace Task

variable (K : Comparison R τ)

/-- Two tasks come to moments that go together, with results that agree. -/
def Alike (E : α → α' → Prop) (t : Task R α) (u : Task R α') : Prop :=
  ∀ m m' r m₁ r' m₁', m.Meets K.start K.start' m' → t.Comes K.left m r m₁ →
    u.Comes K.right m' r' m₁' → m₁.Meets K.start K.start' m₁' ∧ Option.Rel E r r'

variable {K} {E : α → α' → Prop} {F : β → β' → Prop} {t : Task R α} {u : Task R α'}

/-- Tasks that end at once with results that agree are alike. -/
theorem alike_pure {a : α} {b : α'} (h : E a b) :
    (pure a : Task R α).Alike K E (pure b) := by
  rintro m m' r m₁ r' m₁' hm ⟨rfl, rfl⟩ ⟨rfl, rfl⟩
  exact ⟨hm, .some h⟩

/-- Tasks that crash are alike. -/
theorem alike_crash : (crash : Task R α).Alike K E (crash : Task R α') := by
  rintro m m' r m₁ r' m₁' hm ⟨rfl, rfl⟩ ⟨rfl, rfl⟩
  exact ⟨hm, .none⟩

/-- Tasks that are alike go on alike if they do so from results that agree. -/
theorem Alike.bind {f : α → Task R β} {g : α' → Task R β'} (ht : t.Alike K E u)
    (hf : ∀ a b, E a b → (f a).Alike K F (g b)) : (t >>= f).Alike K F (u >>= g) := by
  intro m m' r m₁ r' m₁' hm h h'
  obtain ⟨r₂, m₂, hcomes, hrest⟩ := comes_bind.1 h
  obtain ⟨r₂', m₂', hcomes', hrest'⟩ := comes_bind.1 h'
  obtain ⟨hm₂, hr⟩ := ht _ _ _ _ _ _ hm hcomes hcomes'
  cases hr with
  | none =>
    obtain ⟨rfl, rfl⟩ := hrest
    obtain ⟨rfl, rfl⟩ := hrest'
    exact ⟨hm₂, .none⟩
  | some hab => exact hf _ _ hab _ _ _ _ _ _ hm₂ hrest hrest'

/-- Alike tasks one after the other are alike. -/
theorem Alike.taskBind {f : α → Task R β} {g : α' → Task R β'} (ht : t.Alike K E u)
    (hf : ∀ a b, E a b → (f a).Alike K F (g b)) : (t.bind f).Alike K F (u.bind g) :=
  ht.bind hf

/-- Alike tasks are so by any weaker agreement. -/
theorem Alike.mono {E' : α → α' → Prop} (h : t.Alike K E u) (hE : ∀ a b, E a b → E' a b) :
    t.Alike K E' u := by
  intro m m' r m₁ r' m₁' hm hr hr'
  obtain ⟨hm₁, hagree⟩ := h _ _ _ _ _ _ hm hr hr'
  refine ⟨hm₁, ?_⟩
  cases hagree with
  | none => exact .none
  | some hab => exact .some (hE _ _ hab)

/-- To read the clock is to read instants equally far from the starts. -/
theorem alike_now : (now : Task R Nat).Alike K (Level K.start K.start') now := by
  rintro m m' r m₁ r' m₁' hm ⟨rfl, rfl⟩ ⟨rfl, rfl⟩
  exact ⟨hm, .some hm.level⟩

/-- To read the stop flag is to read the same. -/
theorem alike_isStopped : (isStopped : Task R Bool).Alike K (· = ·) isStopped := by
  rintro m m' r m₁ r' m₁' hm ⟨rfl, rfl⟩ ⟨rfl, rfl⟩
  exact ⟨hm, .some hm.isStopped⟩

/-- Pauses of the same time are alike. -/
theorem alike_sleep (ms : Nat) : (sleep ms : Task R Bool).Alike K (· = ·) (sleep ms) := by
  rintro m m' r m₁ r' m₁' hm ⟨rfl, rfl⟩ ⟨rfl, rfl⟩
  obtain ⟨hfull, hm₁⟩ := hm.pause ms
  exact ⟨hm₁, .some hfull⟩

/-- To let the others go first is alike. -/
theorem alike_yield : (yield : Task R Unit).Alike K (· = ·) yield := by
  rintro m m' r m₁ r' m₁' hm ⟨rfl, rfl⟩ ⟨rfl, rfl⟩
  exact ⟨hm, .some rfl⟩

/-- Calls that are replied to alike are alike. -/
theorem alike_ask {c c' : C} {E : R c → R c' → Prop} (h : K.Replies c c' E) :
    (ask c).Alike K E (ask c') :=
  fun m m' r m₁ r' m₁' hm hr hr' => h m m' r m₁ r' m₁' hm (comes_ask.1 hr) (comes_ask.1 hr')

/-- A task comes to a certain result without anything happening. -/
def Idles (S : Surroundings R τ) (P : α → Prop) (t : Task R α) : Prop :=
  ∀ m r m', t.Comes S m r m' → m' = m ∧ ∃ a, r = some a ∧ P a

section Idles

variable {S : Surroundings R τ} {P : α → Prop} {Q : β → Prop}

/-- A task that ends at once is idle. -/
theorem idles_pure {a : α} (h : P a) : (pure a : Task R α).Idles S P := by
  rintro m r m' ⟨rfl, rfl⟩
  exact ⟨rfl, a, rfl, h⟩

/-- To make a call that comes to nothing is idle. -/
theorem idles_ask {c : C} (h : S.Idles c) : (ask c).Idles S fun _ => True := by
  intro m r m' hr
  obtain ⟨rfl, a, rfl⟩ := h m r m' (comes_ask.1 hr)
  exact ⟨rfl, a, rfl, trivial⟩

/-- Idle tasks one after the other are idle. -/
theorem Idles.bind {t : Task R α} {f : α → Task R β} (ht : t.Idles S P)
    (hf : ∀ a, P a → (f a).Idles S Q) : (t >>= f).Idles S Q := by
  intro m r m' h
  obtain ⟨r₁, m₁, hcomes, hrest⟩ := comes_bind.1 h
  obtain ⟨rfl, a, rfl, ha⟩ := ht _ _ _ hcomes
  exact hf a ha _ _ _ hrest

end Idles

/-- Two tasks in which nothing happens are alike in what they are known to come to. -/
theorem Idles.alike {P : α → Prop} {P' : α' → Prop} (ht : t.Idles K.left P)
    (hu : u.Idles K.right P') (hE : ∀ a b, P a → P' b → E a b) : t.Alike K E u := by
  intro m m' r m₁ r' m₁' hm hr hr'
  obtain ⟨rfl, a, rfl, ha⟩ := ht _ _ _ hr
  obtain ⟨rfl, b, rfl, hb⟩ := hu _ _ _ hr'
  exact ⟨hm, .some (hE a b ha hb)⟩

/-- Tasks that are alike remain so with something to be done at the end of each that is alike. -/
theorem Alike.ensuring {last last' : Task R Unit} (h : t.Alike K E u)
    (hlast : last.Alike K (· = ·) last') : (t.ensuring last).Alike K E (u.ensuring last') := by
  intro m m' r m₁ r' m₁' hm hr hr'
  obtain ⟨a, m₂, ended, hcomes, hended, rfl⟩ := comes_ensuring.1 hr
  obtain ⟨b, m₂', ended', hcomes', hended', rfl⟩ := comes_ensuring.1 hr'
  obtain ⟨hm₂, hab⟩ := h _ _ _ _ _ _ hm hcomes hcomes'
  obtain ⟨hm₁, hends⟩ := hlast _ _ _ _ _ _ hm₂ hended hended'
  refine ⟨hm₁, ?_⟩
  cases hends with
  | none => exact .none
  | some _ => exact hab

end Task

/-! ## Among more kinds of calls -/

/-- The surroundings of a task whose calls stand for calls of another kind. -/
def Surroundings.along (S : Surroundings R' τ) (place : C → C') (reply : ∀ c, R' (place c) → R c) :
    Surroundings R τ where
  replies c m r m' := ∃ r', S.replies (place c) m r' m' ∧ r = r'.map (reply c)
  answers c m r m' := ∃ r', S.answers (place c) m r' m' ∧ r = r'.map (reply c)

/-- A task among more kinds of calls comes to what it comes to among its own. -/
theorem Task.comes_embed {S : Surroundings R' τ} {place : C → C'}
    {reply : ∀ c, R' (place c) → R c} {t : Task R α} {m m' : Moment τ} {r : Option α} :
    (t.embed place reply).Comes S m r m' ↔ t.Comes (S.along place reply) m r m' := by
  induction t generalizing m with
  | done a => exact Iff.rfl
  | crash => exact Iff.rfl
  | clock next ih => exact ih _
  | stopRequested next ih => exact ih _
  | pause ms next ih => exact ih _
  | giveWay next ih => exact ih
  | call c next ih =>
    constructor
    · rintro ⟨reply', m₁, hreply, hnext⟩
      exact ⟨_, m₁, ⟨reply', hreply, rfl⟩, (ih _).1 hnext⟩
    · rintro ⟨_, m₁, ⟨reply', hreply, rfl⟩, hnext⟩
      exact ⟨reply', m₁, hreply, (ih _).2 hnext⟩

/-- The comparison of tasks whose calls stand for calls of another kind. -/
def Comparison.along (K : Comparison R' τ) (place : C → C') (reply : ∀ c, R' (place c) → R c) :
    Comparison R τ :=
  ⟨K.left.along place reply, K.right.along place reply, K.start, K.start'⟩

/-- Tasks are alike among more kinds of calls if they are among their own. -/
theorem Task.Alike.embed {K : Comparison R' τ} {place : C → C'} {reply : ∀ c, R' (place c) → R c}
    {E : α → α' → Prop} {t : Task R α} {u : Task R α'} (h : t.Alike (K.along place reply) E u) :
    (t.embed place reply).Alike K E (u.embed place reply) := by
  intro m m' r m₁ r' m₁' hm hr hr'
  exact h _ _ _ _ _ _ hm (Task.comes_embed.1 hr) (Task.comes_embed.1 hr')

end DeviceSuite
