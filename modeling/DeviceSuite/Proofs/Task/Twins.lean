import DeviceSuite.Proofs.Task.Terms
import DeviceSuite.Task.Strand
import Mathlib.Data.Option.Basic

/-!
# Twins

Two tasks are twins when they make corresponding calls in the same order, as long as the replies
correspond as well. Beside these, each may read the clock and make some calls on its own, in any
number, which must be answered but of whose answers nothing comes.

Twins are found piece by piece, as the programs are made: no run of them is looked at here.
-/

namespace DeviceSuite

variable {C : Type} {R : C → Type} {α β γ δ : Type}

/-- How the calls of two tasks compare: which correspond, and when their replies do, and which
calls each may make on its own. -/
structure Pairing {C : Type} (R : C → Type) where
  pairs : C → C → Prop
  heard : ∀ c c', R c → R c' → Prop
  aside : C → Prop

namespace Task

/-- Two tasks that make corresponding calls, and end with corresponding results. -/
inductive Twin (P : Pairing R) (E : α → β → Prop) : Task R α → Task R β → Prop where
  | done {a : α} {b : β} (h : E a b) : Twin P E (.done a) (.done b)
  | crash : Twin P E .crash .crash
  | clock {next : Nat → Task R α} {next' : Nat → Task R β}
    (h : ∀ ms, Twin P E (next ms) (next' ms)) : Twin P E (.clock next) (.clock next')
  | stopRequested {next : Bool → Task R α} {next' : Bool → Task R β}
    (h : ∀ b, Twin P E (next b) (next' b)) : Twin P E (.stopRequested next) (.stopRequested next')
  | pause {ms : Nat} {next : Bool → Task R α} {next' : Bool → Task R β}
    (h : ∀ full, Twin P E (next full) (next' full)) : Twin P E (.pause ms next) (.pause ms next')
  | giveWay {next : Task R α} {next' : Task R β} (h : Twin P E next next') :
    Twin P E (.giveWay next) (.giveWay next')
  | call {c c' : C} {next : Option (R c) → Task R α} {next' : Option (R c') → Task R β}
    (hc : P.pairs c c')
    (h : ∀ r r', Option.Rel (P.heard c c') r r' → Twin P E (next r) (next' r')) :
    Twin P E (.call c next) (.call c' next')
  | clockLeft {next : Nat → Task R α} {u : Task R β} (h : ∀ ms, Twin P E (next ms) u) :
    Twin P E (.clock next) u
  | clockRight {t : Task R α} {next : Nat → Task R β} (h : ∀ ms, Twin P E t (next ms)) :
    Twin P E t (.clock next)
  | asideLeft {c : C} {next : Option (R c) → Task R α} {u : Task R β} (hc : P.aside c)
    (h : ∀ r, Twin P E (next (some r)) u) : Twin P E (.call c next) u
  | asideRight {t : Task R α} {c : C} {next : Option (R c) → Task R β} (hc : P.aside c)
    (h : ∀ r, Twin P E t (next (some r))) : Twin P E t (.call c next)

/-- A task that does nothing but what it may do on its own. -/
def Aside (P : Pairing R) : Task R α → Prop
  | done _ => True
  | clock next => ∀ ms, (next ms).Aside P
  | call c next => P.aside c ∧ ∀ r, (next (some r)).Aside P
  | crash | stopRequested _ | pause _ _ | giveWay _ => False

variable {P : Pairing R} {E : α → β → Prop} {F : γ → δ → Prop} {t : Task R α} {u : Task R β}

/-- Twins go on as twins if they do so from corresponding results. -/
theorem Twin.bind {f : α → Task R γ} {g : β → Task R δ} (h : t.Twin P E u)
    (hf : ∀ a b, E a b → (f a).Twin P F (g b)) : (t >>= f).Twin P F (u >>= g) := by
  induction h with
  | done h => exact hf _ _ h
  | crash => exact .crash
  | clock _ ih => exact .clock ih
  | stopRequested _ ih => exact .stopRequested ih
  | pause _ ih => exact .pause ih
  | giveWay _ ih => exact .giveWay ih
  | call hc _ ih => exact .call hc ih
  | clockLeft _ ih => exact .clockLeft ih
  | clockRight _ ih => exact .clockRight ih
  | asideLeft hc _ ih => exact .asideLeft hc ih
  | asideRight hc _ ih => exact .asideRight hc ih

/-- Twins are so by any weaker correspondence. -/
theorem Twin.mono {E' : α → β → Prop} (h : t.Twin P E u) (hE : ∀ a b, E a b → E' a b) :
    t.Twin P E' u := by
  induction h with
  | done h => exact .done (hE _ _ h)
  | crash => exact .crash
  | clock _ ih => exact .clock ih
  | stopRequested _ ih => exact .stopRequested ih
  | pause _ ih => exact .pause ih
  | giveWay _ ih => exact .giveWay ih
  | call hc _ ih => exact .call hc ih
  | clockLeft _ ih => exact .clockLeft ih
  | clockRight _ ih => exact .clockRight ih
  | asideLeft hc _ ih => exact .asideLeft hc ih
  | asideRight hc _ ih => exact .asideRight hc ih

/-- Twins remain so when twins do one more thing at the end. -/
theorem Twin.ensuring {last last' : Task R Unit} (h : t.Twin P E u)
    (hlast : last.Twin P (fun _ _ => True) last') :
    (t.ensuring last).Twin P E (u.ensuring last') := by
  induction h with
  | done h => exact hlast.bind fun _ _ _ => .done h
  | crash => exact hlast.bind fun _ _ _ => .crash
  | clock _ ih => exact .clock ih
  | stopRequested _ ih => exact .stopRequested ih
  | pause _ ih => exact .pause ih
  | giveWay _ ih => exact .giveWay ih
  | call hc _ ih => exact .call hc ih
  | clockLeft _ ih => exact .clockLeft ih
  | clockRight _ ih => exact .clockRight ih
  | asideLeft hc _ ih => exact .asideLeft hc ih
  | asideRight hc _ ih => exact .asideRight hc ih

/-- Twins may read the clock. -/
theorem twin_now : (now : Task R Nat).Twin P (fun a b => a = b) now := .clock fun _ => .done rfl

/-- Twins may read the stop flag. -/
theorem twin_isStopped : (isStopped : Task R Bool).Twin P (fun a b => a = b) isStopped :=
  .stopRequested fun _ => .done rfl

/-- Twins may pause. -/
theorem twin_sleep (ms : Nat) : (sleep ms : Task R Bool).Twin P (fun a b => a = b) (sleep ms) :=
  .pause fun _ => .done rfl

/-- Twins may make calls that correspond. -/
theorem twin_ask {c c' : C} (hc : P.pairs c c') :
    (ask c : Task R (R c)).Twin P (P.heard c c') (ask c') := by
  refine .call hc fun r r' hr => ?_
  cases hr with
  | none => exact .crash
  | some hr => exact .done hr

/-- What is done on its own may be done in parts. -/
theorem Aside.bind {f : α → Task R γ} (h : t.Aside P) (hf : ∀ a, (f a).Aside P) :
    (t >>= f).Aside P := by
  induction t with
  | done a => exact hf a
  | clock next ih => exact fun ms => ih ms (h ms)
  | call c next ih => exact ⟨h.1, fun r => ih (some r) (h.2 r)⟩
  | crash | stopRequested | pause | giveWay => exact h.elim

/-- What a task does on its own, its twin need not do. -/
theorem Aside.twin_left {f : α → Task R γ} {v : Task R δ} (h : t.Aside P)
    (hf : ∀ a, (f a).Twin P F v) : (t >>= f).Twin P F v := by
  induction t with
  | done a => exact hf a
  | clock next ih => exact .clockLeft fun ms => ih ms (h ms)
  | call c next ih => exact .asideLeft h.1 fun r => ih (some r) (h.2 r)
  | crash | stopRequested | pause | giveWay => exact h.elim

/-- What the other twin does on its own, the first need not do. -/
theorem Aside.twin_right {f : β → Task R δ} {v : Task R γ} (h : u.Aside P)
    (hf : ∀ b, v.Twin P F (f b)) : v.Twin P F (u >>= f) := by
  induction u with
  | done a => exact hf a
  | clock next ih => exact .clockRight fun ms => ih ms (h ms)
  | call c next ih => exact .asideRight h.1 fun r => ih (some r) (h.2 r)
  | crash | stopRequested | pause | giveWay => exact h.elim

/-- Twins may each do something on its own before they go on. -/
theorem Aside.twins {f : α → Task R γ} {g : β → Task R δ} (h : t.Aside P) (h' : u.Aside P)
    (hfg : ∀ a b, (f a).Twin P F (g b)) : (t >>= f).Twin P F (u >>= g) :=
  h.twin_left fun a => h'.twin_right fun b => hfg a b

end Task

/-- Two strands whose tasks are twins from where they stand. -/
inductive Strand.Twin (P : Pairing R) (E : α → β → Prop) : Strand R α → Strand R β → Prop where
  | ready {t : Task R α} {u : Task R β} (h : t.Twin P E u) : Twin P E (.ready t) (.ready u)
  | resting {due : Nat} {next : Bool → Task R α} {next' : Bool → Task R β}
    (h : ∀ full, (next full).Twin P E (next' full)) : Twin P E (.resting due next) (.resting due next')
  | waiting {c c' : C} {next : Option (R c) → Task R α} {next' : Option (R c') → Task R β}
    (hc : P.pairs c c')
    (h : ∀ r r', Option.Rel (P.heard c c') r r' → (next r).Twin P E (next' r')) :
    Twin P E (.waiting c next) (.waiting c' next')
  | calling {due : Nat} {c c' : C} {next : Option (R c) → Task R α}
    {next' : Option (R c') → Task R β} (hc : P.pairs c c')
    (h : ∀ r r', Option.Rel (P.heard c c') r r' → (next r).Twin P E (next' r')) :
    Twin P E (.calling due c next) (.calling due c' next')
  | ended {r : Option α} {r' : Option β} (h : Option.Rel E r r') : Twin P E (.ended r) (.ended r')

end DeviceSuite
