import DeviceSuite.Proofs.Session.Ending
import DeviceSuite.Proofs.Session.Timely

/-!
# Punctual sessions

In a punctual session no strand is late: the clock moves only when no strand is able to go on, and
not past an instant at which one is due. Stops may come whenever they like. A session that is given
time is punctual, `Session.Opened.exists_lapse`: its strands take their turns when they are able,
and the clock moves to the next instant at which one is due.
-/

namespace DeviceSuite

/-- A strand that is not able to go on is due later. -/
theorem Host.now_lt_due {C : Type} {R : C → Type} {α L σ : Type} {h : Host R α L σ} {s : σ} {l : L}
    {strand : Strand R α} (hable : h.isAble s l strand = false) {due : Nat}
    (hdue : strand.due? = some due) : h.now s < due := by
  cases strand with
  | resting due' next =>
    obtain rfl := Option.some.inj hdue
    simpa using (Bool.or_eq_false_iff.1 hable).2
  | calling due' c next =>
    obtain rfl := Option.some.inj hdue
    simpa [isAble] using hable
  | _ => cases hdue

namespace Session

variable {σ : Type}

/-- A move that comes in time: the clock does not move past a strand. -/
def Punctual (s : Session σ) : Move → Prop
  | .clock time => s.IsStill ∧ s.now ≤ time ∧ ∀ e ∈ s.pool.strands, ∀ due ∈ e.2.due?, time ≤ due
  | _ => True

/-- Each move comes in time. -/
def AllPunctual (s : Session σ) : List Move → Prop
  | [] => True
  | m :: rest => s.Punctual m ∧ (s.perform m).AllPunctual rest

instance (s : Session σ) : (m : Move) → Decidable (s.Punctual m)
  | .clock time => inferInstanceAs (Decidable (s.IsStill ∧ s.now ≤ time ∧
      ∀ e ∈ s.pool.strands, ∀ due ∈ e.2.due?, time ≤ due))
  | .turn _ | .stop _ | .stopRun _ | .launch _ _ _ | .release _ | .insertScenario _
  | .removeScenario _ | .disconnect _ => .isTrue trivial

instance decidableAllPunctual : (s : Session σ) → (moves : List Move) →
    Decidable (s.AllPunctual moves)
  | _, [] => .isTrue trivial
  | s, m :: rest =>
    have := decidableAllPunctual (s.perform m) rest
    inferInstanceAs (Decidable (_ ∧ _))

/-- Moves with which a session lets time pass until a limit: strands that are able take their turns,
and when none is the clock moves to the next instant at which one is due. -/
inductive Lapse (limit : Option Nat) : Session σ → List Move → Prop
  | nil {s} : Lapse limit s []
  | turn {s i rest} : s.pool.isAble s.host i = true → Lapse limit (s.takeTurn i) rest →
      Lapse limit s (.turn i :: rest)
  | clock {s due rest} : s.IsStill → s.now < due →
      (∀ e ∈ s.pool.strands, ∀ due' ∈ e.2.due?, due ≤ due') → (∀ time ∈ limit, due < time) →
      Lapse limit (s.perform (.clock due)) rest → Lapse limit s (.clock due :: rest)

variable {s : Session σ} {limit : Option Nat} {goal : World σ → Bool} {moves more : List Move}

/-- Moves that come in time may follow one another. -/
theorem AllPunctual.append (h : s.AllPunctual moves) (hmore : (s.performs moves).AllPunctual more) :
    s.AllPunctual (moves ++ more) := by
  induction moves generalizing s with
  | nil => exact hmore
  | cons m rest ih => exact ⟨h.1, ih h.2 hmore⟩

namespace Lapse

/-- A session that lets time pass may let more time pass. -/
theorem append (h : s.Lapse limit moves) (hmore : (s.performs moves).Lapse limit more) :
    s.Lapse limit (moves ++ more) := by
  induction h with
  | nil => exact hmore
  | turn able _ ih => exact .turn able (ih hmore)
  | clock hstill hlt hdues hlimit _ ih => exact .clock hstill hlt hdues hlimit (ih hmore)

/-- Moves with which time passes may be made. -/
theorem allowed (h : s.Lapse limit moves) : s.allowsAll moves = true := by
  induction h with
  | nil => rfl
  | turn able _ ih => exact Bool.and_eq_true_iff.2 ⟨able, ih⟩
  | clock _ _ _ _ _ ih => exact Bool.and_eq_true_iff.2 ⟨rfl, ih⟩

/-- Moves with which time passes come in time. -/
theorem punctual (h : s.Lapse limit moves) : s.AllPunctual moves := by
  induction h with
  | nil => trivial
  | turn _ _ ih => exact ⟨trivial, ih⟩
  | clock hstill hlt hdues _ _ ih => exact ⟨⟨hstill, Nat.le_of_lt hlt, hdues⟩, ih⟩

end Lapse

/-- A turn takes no time. -/
theorem now_takeTurn {i : Nat} (able : s.pool.isAble s.host i = true) :
    (s.takeTurn i).now = s.now := by
  obtain ⟨l, strand, -, hable, hworld, -⟩ := takeTurn_spec able
  rw [now, hworld]
  refine Host.resume_keeps (h := s.host) (P := fun w => w.now = s.now) ?_ ?_ ?_ ?_ hable rfl
  · intro w c hw
    cases c <;> exact hw
  · intro w c hw
    obtain ⟨_, _, _, haccept⟩ := w.accept_eq s.plan.service l c
    exact (congrArg World.now haccept).trans hw
  · intro w c hw
    have hseen : c.isDevice = false →
        ((w.answer s.plan.service l c).1.seen none "").now = (w.seen none "").now :=
      fun hc => congrArg Moment.now (World.answer_seen s.plan.service w l hc)
    cases c with
    | device c =>
      obtain ⟨_, hanswer, -⟩ := w.answerDevice_eq s.plan.service (World.deviceOf l) c
      exact (congrArg (fun x => x.1.now) hanswer).trans hw
    | _ => exact (hseen rfl).trans hw
  · intro w r hw
    cases l <;> exact hw

/-- The next instant at which a strand is due is not past, and no strand is due before it. -/
theorem IsStill.due?_spec (hstill : s.IsStill) {due : Nat} (hdue : s.pool.due? = some due) :
    s.now < due ∧ ∀ e ∈ s.pool.strands, ∀ due' ∈ e.2.due?, due ≤ due' := by
  obtain ⟨hmem, hle⟩ := List.min?_eq_some_iff.1 hdue
  obtain ⟨e, he, hedue⟩ := List.mem_filterMap.1 hmem
  exact ⟨Host.now_lt_due (hstill e he) hedue,
    fun e he due' hdue' => hle due' (List.mem_filterMap.2 ⟨e, he, hdue'⟩)⟩

namespace Opened

/-- A session without a next turn is still. -/
theorem isStill_of_next? (ho : s.Opened) (hnext : s.pool.next? s.host = none) : s.IsStill := by
  intro e he
  cases hable : s.host.isAble s.world e.1 e.2 with
  | false => rfl
  | true =>
    obtain ⟨i, hi⟩ := List.getElem?_of_mem he
    have hsome := Pool.next?_isSome ho.covers ((Option.any_eq_true _ _).2 ⟨e, hi, hable⟩)
    rw [hnext] at hsome
    cases hsome

/-- A session that has run until an instant is still, and no strand is due before it. -/
theorem still_of_step? (ho : s.Opened) {time : Nat}
    (hstep : s.pool.step? s.host (some time) (fun _ => false) = none) :
    s.IsStill ∧ ∀ e ∈ s.pool.strands, ∀ due ∈ e.2.due?, time ≤ due := by
  have hnext : s.pool.next? s.host = none := by
    cases hnext : s.pool.next? s.host with
    | none => rfl
    | some i => simp [Pool.step?, hnext] at hstep
  have hstill := ho.isStill_of_next? hnext
  refine ⟨hstill, fun e he due hedue => ?_⟩
  have hmem : due ∈ s.pool.strands.filterMap fun e => e.2.due? :=
    List.mem_filterMap.2 ⟨e, he, hedue⟩
  obtain ⟨first, hfirst⟩ : ∃ first, s.pool.due? = some first :=
    Option.isSome_iff_exists.1 (List.isSome_min?_of_mem hmem)
  obtain ⟨e', he', hefirst⟩ := List.mem_filterMap.1 (List.min?_eq_some_iff.1 hfirst).1
  obtain ⟨i, hi⟩ := List.getElem?_of_mem he'
  have able : (s.pool.change s.host (s.host.atTime first)).isAble s.host i = true :=
    (Option.any_eq_true _ _).2 ⟨e', hi, Pool.isAble_of_due? hefirst rfl e'.1⟩
  obtain ⟨j, hj⟩ :=
    Option.isSome_iff_exists.1 (Pool.next?_isSome (ho.covers.change _) able)
  have hle : time ≤ first := by
    by_contra hlt
    simp [Pool.step?, hnext, hfirst, hlt, hj] at hstep
  exact Nat.le_trans hle ((hstill.due?_spec hfirst).2 e he due hedue)

/-- The turn that comes next is taken at once, or when the clock has moved to it. -/
theorem step_lapse (ho : s.Opened) {q : Pool RunCall.Reply RoleResult Role (World σ)}
    (hq : s.pool.step? s.host limit goal = some q) :
    ∃ moves, s.Lapse limit moves ∧ s.performs moves = { s with pool := q } := by
  rw [Pool.step?] at hq
  split at hq
  · next i hi =>
    cases hq
    exact ⟨[.turn i], .turn (Pool.next?_isAble hi) .nil, rfl⟩
  · next hnext =>
    split at hq
    · cases hq
    obtain ⟨due, hdue, hq⟩ := Option.bind_eq_some_iff.1 hq
    split at hq
    · cases hq
    next hbefore =>
    obtain ⟨i, hi, rfl⟩ := Option.map_eq_some_iff.1 hq
    have hstill := ho.isStill_of_next? hnext
    obtain ⟨hlt, hdues⟩ := hstill.due?_spec hdue
    have hlimit : ∀ time ∈ limit, due < time := fun time htime => by
      obtain rfl : limit = some time := htime
      simpa using hbefore
    exact ⟨[.clock due, .turn i],
      .clock hstill hlt hdues hlimit (.turn (Pool.next?_isAble hi) .nil), rfl⟩

/-- Strands that take their turns until none is to go on do so in moves in which time passes. -/
theorem exists_lapse (limit : Option Nat) (goal : World σ → Bool) (ho : s.Opened) :
    ∃ moves, s.Lapse limit moves ∧
      s.performs moves = { s with pool := s.pool.run s.host limit goal } := by
  suffices hall : ∀ p, ({ s with pool := p } : Session σ).Opened →
      ∃ moves, ({ s with pool := p } : Session σ).Lapse limit moves ∧
        ({ s with pool := p } : Session σ).performs moves =
          { s with pool := p.run s.host limit goal } from hall s.pool ho
  clear ho
  intro p
  induction p using (Pool.follows_wf s.host).induction with
  | _ p ih =>
    intro ho
    rw [Pool.run]
    split
    · exact ⟨[], .nil, rfl⟩
    · next q hq =>
      obtain ⟨moves, hmoves, hperforms⟩ := ho.step_lapse hq
      obtain ⟨more, hmore, hperforms'⟩ := ih q (Pool.step?_follows hq)
        (hperforms ▸ ho.performs hmoves.allowed)
      refine ⟨moves ++ more, hmoves.append (hperforms ▸ hmore), ?_⟩
      rw [performs_append, hperforms, hperforms']

/-- A run is waited for in punctual moves. -/
theorem wait_punctual (ho : s.Opened) (n : Nat) :
    ∃ moves, s.allowsAll moves = true ∧ s.AllPunctual moves ∧ s.performs moves = s.wait n := by
  obtain ⟨moves, hmoves, hperforms⟩ :=
    ho.exists_lapse none fun w => ((w.crew? n).bind Crew.result).isSome
  have hrelease : (s.performs moves).AllPunctual [.release n] := ⟨trivial, trivial⟩
  refine ⟨moves ++ [.release n], allowsAll_append.2 ⟨hmoves.allowed, rfl⟩,
    hmoves.punctual.append hrelease, ?_⟩
  rw [performs_append, hperforms]
  rfl

end Opened

end Session

end DeviceSuite
