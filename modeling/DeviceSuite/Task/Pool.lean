import DeviceSuite.Task.Strand

/-!
# Pools of tasks

The tasks of a pool share a host and go on in turns, each until it stands. Those that are able to
go on do so in the order in which they became able. When none is able, the clock moves to the
next instant at which one of them is due, and not before. Since each strand goes on only finitely
often, a pool can be run until it stands: `Pool.run`.
-/

namespace DeviceSuite

/-- One list comes from another by a step of one of its elements. -/
inductive StepOfOne {τ : Type} (r : τ → τ → Prop) : List τ → List τ → Prop where
  | head {b a : τ} {rest : List τ} : r b a → StepOfOne r (b :: rest) (a :: rest)
  | tail {a : τ} {later earlier : List τ} :
    StepOfOne r later earlier → StepOfOne r (a :: later) (a :: earlier)

namespace StepOfOne

variable {τ : Type} {r : τ → τ → Prop}

/-- A list goes on only finitely often if its head and its tail do. -/
theorem acc_cons {a : τ} (ha : Acc r a) {rest : List τ} (hrest : Acc (StepOfOne r) rest) :
    Acc (StepOfOne r) (a :: rest) := by
  induction ha generalizing rest with
  | intro a _ iha =>
    induction hrest with
    | intro rest hr ihr =>
      refine ⟨_, fun later step => ?_⟩
      cases step with
      | head hb => exact iha _ hb ⟨rest, hr⟩
      | tail ht => exact ihr _ ht

/-- If no element can go on forever, no list of them can. -/
theorem wf (hr : WellFounded r) : WellFounded (StepOfOne r) := by
  refine ⟨fun l => ?_⟩
  induction l with
  | nil => exact ⟨_, fun _ step => by cases step⟩
  | cons a rest ih => exact acc_cons (hr.apply a) ih

/-- A step of one element is a step of the list. -/
theorem set {l : List τ} {i : Nat} {a b : τ} (ha : l[i]? = some a) (hb : r b a) :
    StepOfOne r (l.set i b) l := by
  induction l generalizing i with
  | nil => simp at ha
  | cons c rest ih =>
    cases i with
    | zero =>
      obtain rfl : c = a := by simpa using ha
      exact .head hb
    | succ i => exact .tail (ih (by simpa using ha))

end StepOfOne

/-- Tasks that share a host, by their labels, and the order in which they are to go on. -/
structure Pool {C : Type} (R : C → Type) (α L σ : Type) where
  shared : σ
  strands : List (L × Strand R α)
  order : List Nat

namespace Pool

variable {C : Type} {R : C → Type} {α L σ : Type}

/-- A pool without tasks. -/
def empty (shared : σ) : Pool R α L σ := ⟨shared, [], []⟩

/-- Whether the strand at a position is able to go on. -/
def isAble (h : Host R α L σ) (p : Pool R α L σ) (i : Nat) : Bool :=
  p.strands[i]?.any fun (l, strand) => h.isAble p.shared l strand

/-- Let those that are able stand before the others, and otherwise keep the order. -/
def lineUp (h : Host R α L σ) (p : Pool R α L σ) : Pool R α L σ :=
  { p with order := p.order.filter (p.isAble h) ++ p.order.filter fun i => !p.isAble h i }

/-- Add a strand behind all others. -/
def spawn (h : Host R α L σ) (p : Pool R α L σ) (l : L) (strand : Strand R α) : Pool R α L σ :=
  lineUp h { p with
    strands := p.strands ++ [(l, strand)]
    order := p.order ++ [p.strands.length] }

/-- Change what the tasks share. -/
def change (h : Host R α L σ) (p : Pool R α L σ) (f : σ → σ) : Pool R α L σ :=
  lineUp h { p with shared := f p.shared }

/-- Let the strand at a position go on, and put it behind all others. -/
def turn (h : Host R α L σ) (p : Pool R α L σ) (i : Nat) : Pool R α L σ :=
  match p.strands[i]? with
  | none => p
  | some (l, strand) =>
    let (shared, strand) := h.resume l strand p.shared
    lineUp h
      { shared := shared, strands := p.strands.set i (l, strand), order := p.order.erase i ++ [i] }

/-- The first strand that is able to go on. -/
def next? (h : Host R α L σ) (p : Pool R α L σ) : Option Nat := p.order.find? (p.isAble h)

/-- The next instant at which a strand is due. -/
def due? (p : Pool R α L σ) : Option Nat := (p.strands.filterMap fun entry => entry.2.due?).min?

/-- The next turn: now if a strand is able to go on, or else, unless the goal is reached, at the
next instant at which one is due, if that is before the limit. -/
def step? (h : Host R α L σ) (limit : Option Nat) (goal : σ → Bool) (p : Pool R α L σ) :
    Option (Pool R α L σ) :=
  match p.next? h with
  | some i => some (p.turn h i)
  | none =>
    if goal p.shared then none
    else
      p.due?.bind fun due =>
        if limit.any (· ≤ due) then none
        else
          let p := p.change h (h.atTime due)
          (p.next? h).map (p.turn h)

/-- One pool comes from another by a turn of one strand. -/
def Follows (h : Host R α L σ) (later earlier : Pool R α L σ) : Prop :=
  StepOfOne (fun b a => h.Follows b.2 a.2) later.strands earlier.strands

/-- A pool goes on only finitely often. -/
theorem follows_wf (h : Host R α L σ) : WellFounded (Follows h) :=
  InvImage.wf strands (StepOfOne.wf (InvImage.wf Prod.snd h.follows_wf))

/-- A turn of a strand that is able follows the pool. -/
theorem turn_follows {h : Host R α L σ} {p : Pool R α L σ} {i : Nat} (able : p.isAble h i) :
    Follows h (p.turn h i) p := by
  obtain ⟨⟨l, strand⟩, hi, able⟩ := (Option.any_eq_true _ _).1 able
  simp only [turn, hi]
  exact StepOfOne.set hi ⟨p.shared, l, able, rfl⟩

/-- The strand that is next is able to go on. -/
theorem next?_isAble {h : Host R α L σ} {p : Pool R α L σ} {i : Nat} (hi : p.next? h = some i) :
    p.isAble h i :=
  List.find?_some hi

/-- The next turn follows the pool. -/
theorem step?_follows {h : Host R α L σ} {limit : Option Nat} {goal : σ → Bool}
    {p q : Pool R α L σ} (hq : p.step? h limit goal = some q) : Follows h q p := by
  rw [step?] at hq
  split at hq
  · next i hi =>
    cases hq
    exact turn_follows (next?_isAble hi)
  · split at hq
    · cases hq
    · obtain ⟨due, -, hq⟩ := Option.bind_eq_some_iff.1 hq
      split at hq
      · cases hq
      · obtain ⟨i, hi, rfl⟩ := Option.map_eq_some_iff.1 hq
        exact turn_follows (next?_isAble hi)

/-- Let the strands take their turns until none is able to go on and the goal is reached, or
until no turn is left before the limit. -/
def run (h : Host R α L σ) (limit : Option Nat) (goal : σ → Bool) (p : Pool R α L σ) :
    Pool R α L σ :=
  match _hq : p.step? h limit goal with
  | none => p
  | some q => q.run h limit goal
termination_by (follows_wf h).wrap p
decreasing_by exact step?_follows _hq

end Pool

end DeviceSuite
