import DeviceSuite.Proofs.Task.Brisk
import DeviceSuite.Proofs.Task.Terms

/-!
# Tasks in time

For a task among others time passes only where it stands: while it pauses, while a call waits for
its turn or is under way, and never in between. The stop flag may be raised at any instant, and a
pause then ends at that instant. So the calls of a task are told with the instants at which they
begin, and how a task unfolds in time is told by rules that follow its shape.
-/

namespace DeviceSuite

/-- How late it is for a task, and since when its stop flag is raised, if it is. -/
structure Beat where
  now : Nat
  raised : Option Nat

namespace Beat

variable {b b' b'' : Beat} {ms began time : Nat} {full : Bool} {pace : Pace}

/-- It is later, and the flag may have been raised meanwhile. -/
structure Later (b b' : Beat) : Prop where
  now_le : b.now ≤ b'.now
  kept : ∀ time ∈ b.raised, b'.raised = some time
  fresh : ∀ time ∈ b'.raised, b.raised = some time ∨ b.now ≤ time ∧ time ≤ b'.now

/-- The flag may have been raised, but no time has passed. -/
structure Still (b b' : Beat) : Prop extends Later b b' where
  now_eq : b'.now = b.now

/-- A pause goes on for its time, or until the flag is raised. -/
inductive Rests (ms : Nat) : Beat → Bool → Beat → Prop where
  | stopped {b : Beat} {time : Nat} : b.raised = some time → Rests ms b false b
  | full {b : Beat} : b.raised = none → Rests ms b true ⟨b.now + ms, none⟩
  | cut {b : Beat} {time : Nat} : b.raised = none → b.now ≤ time → time ≤ b.now + ms →
    Rests ms b false ⟨time, some time⟩

/-- A call is begun and answered as its pace says. -/
structure Calls (pace : Pace) (b : Beat) (began : Nat) (b' : Beat) : Prop where
  later : b.Later b'
  le_began : b.now ≤ began
  began_le : began ≤ b'.now
  begun : pace.waits = false → began = b.now
  answered : pace.lasts = false → b'.now = began

/-- A beat is not later than itself. -/
theorem Later.refl (b : Beat) : b.Later b :=
  ⟨Nat.le_refl _, fun _ => id, fun _ => .inl⟩

/-- Later than later is later. -/
theorem Later.trans (h : b.Later b') (h' : b'.Later b'') : b.Later b'' where
  now_le := Nat.le_trans h.now_le h'.now_le
  kept time ht := h'.kept time (h.kept time ht)
  fresh time ht := by
    rcases h'.fresh time ht with ht | ⟨hlo, hhi⟩
    · rcases h.fresh time ht with ht | ⟨hlo, hhi⟩
      · exact .inl ht
      · exact .inr ⟨hlo, Nat.le_trans hhi h'.now_le⟩
    · exact .inr ⟨Nat.le_trans h.now_le hlo, hhi⟩

/-- A beat is as late as itself. -/
theorem Still.refl (b : Beat) : b.Still b := ⟨.refl b, rfl⟩

/-- No time passes twice in none. -/
theorem Still.trans (h : b.Still b') (h' : b'.Still b'') : b.Still b'' :=
  ⟨h.toLater.trans h'.toLater, h'.now_eq.trans h.now_eq⟩

/-- A flag that is raised from now on is raised no earlier. -/
theorem Later.le_of_raised (h : b.Later b') (hb : b.raised = none) (ht : b'.raised = some time) :
    b.now ≤ time ∧ time ≤ b'.now := by
  rcases h.fresh time ht with hb' | htime
  · rw [hb] at hb'
    cases hb'
  · exact htime

/-- A flag is raised in the past. -/
theorem Later.past (h : b.Later b') (hb : ∀ time ∈ b.raised, time ≤ b.now) :
    ∀ time ∈ b'.raised, time ≤ b'.now := by
  intro time ht
  rcases h.fresh time ht with ht | ⟨-, hle⟩
  · exact Nat.le_trans (hb time ht) h.now_le
  · exact hle

/-- As long as the flag is not raised, more time is later. -/
theorem later_of_none (hb : b.raised = none) (hle : b.now ≤ time) : b.Later ⟨time, none⟩ :=
  ⟨hle, by simp [hb], by simp⟩

/-- The flag may be raised at any later instant. -/
theorem later_of_raised (hb : b.raised = none) (hle : b.now ≤ time) :
    b.Later ⟨time, some time⟩ := by
  refine ⟨hle, by simp [hb], fun time' ht => .inr ?_⟩
  obtain rfl := Option.some.inj ht
  exact ⟨hle, Nat.le_refl _⟩

/-- After a pause it is later. -/
theorem Rests.later (h : b.Rests ms full b') : b.Later b' := by
  cases h with
  | stopped => exact .refl b
  | full hb => exact later_of_none hb (Nat.le_add_right _ _)
  | cut hb hlo => exact later_of_raised hb hlo

/-- A call that is instant begins at once and takes no time. -/
theorem Calls.still (h : b.Calls .instant began b') : began = b.now ∧ b.Still b' :=
  ⟨h.begun rfl, h.later, (h.answered rfl).trans (h.begun rfl)⟩

/-- A call may be answered at once. -/
theorem calls_refl (pace : Pace) (b : Beat) : b.Calls pace b.now b :=
  ⟨.refl b, Nat.le_refl _, Nat.le_refl _, fun _ => rfl, fun _ => rfl⟩

/-- A pause ends in one way or another. -/
theorem exists_rests (b : Beat) (ms : Nat) :
    ∃ full b', b.Rests ms full b' ∧ b'.raised = b.raised := by
  cases hb : b.raised with
  | none => exact ⟨true, _, .full hb, rfl⟩
  | some time => exact ⟨false, b, .stopped hb, hb⟩

/-- At one instant nothing can happen but that the flag is raised. -/
theorem Still.eq_or (h : b.Still b') : b' = b ∨ b.raised = none ∧ b' = ⟨b.now, some b.now⟩ := by
  obtain ⟨now', raised'⟩ := b'
  obtain rfl : now' = b.now := h.now_eq
  cases hb : b.raised with
  | some time =>
    obtain rfl : raised' = some time := h.kept time hb
    exact .inl (by rw [← hb])
  | none =>
    cases raised' with
    | none => exact .inl (by rw [← hb])
    | some time =>
      obtain ⟨hlo, hhi⟩ := h.le_of_raised hb rfl
      obtain rfl := Nat.le_antisymm hlo hhi
      exact .inr ⟨rfl, rfl⟩

/-- At one instant nothing happens once the flag is raised. -/
theorem Still.eq_of_raised (h : b.Still b') (hb : b.raised = some time) : b' = b := by
  rcases h.eq_or with rfl | ⟨hnone, -⟩
  · rfl
  · rw [hb] at hnone
    cases hnone

/-- A pause goes on when the flag has been raised, but then it is over. -/
theorem Rests.of_still (h : Rests ms b' full b'') (hstill : b.Still b') : Rests ms b full b'' := by
  rcases hstill.eq_or with rfl | ⟨hb, rfl⟩
  · exact h
  · cases h with
    | stopped => exact .cut hb (Nat.le_refl _) (Nat.le_add_right _ _)
    | full hraised => cases hraised
    | cut hraised => cases hraised

/-- A pause that has gone on for some time goes on for the rest of it. -/
theorem Rests.of_later {due : Nat} (h : Rests (due - time) ⟨time, none⟩ full b'')
    (hb : b.raised = none) (hlo : b.now ≤ time) (hdue : time ≤ due) :
    Rests (due - b.now) b full b'' := by
  have hsum : time + (due - time) = b.now + (due - b.now) := by omega
  cases h with
  | stopped hraised => cases hraised
  | full => exact hsum ▸ .full hb
  | cut _ hle hhi => exact .cut hb (Nat.le_trans hlo hle) (hsum ▸ hhi)

end Beat

namespace Task

variable {C C' : Type} {R : C → Type} {R' : C' → Type} {α β : Type}

/-- However a task unfolds in time, its calls with the instants at which they begin, its result, and
the beat at which it ends are as `Q` says; a task without a result has crashed. -/
def Unfolds (pace : C → Pace) : Task R α → Beat → (List (Nat × C) → Option α → Beat → Prop) → Prop
  | done a, b, Q => Q [] (some a) b
  | crash, b, Q => Q [] none b
  | clock next, b, Q => (next b.now).Unfolds pace b Q
  | stopRequested next, b, Q => (next b.raised.isSome).Unfolds pace b Q
  | pause ms next, b, Q => ∀ full b', b.Rests ms full b' → (next full).Unfolds pace b' Q
  | giveWay next, b, Q => ∀ b', b.Still b' → next.Unfolds pace b' Q
  | call c next, b, Q => ∀ began b' r, b.Calls (pace c) began b' →
      (next r).Unfolds pace b' fun calls => Q ((began, c) :: calls)

variable {pace : C → Pace} {t : Task R α} {b : Beat}
  {Q Q' : List (Nat × C) → Option α → Beat → Prop}

/-- However a task unfolds, it does so by any weaker account. -/
theorem Unfolds.mono (h : t.Unfolds pace b Q) (hQ : ∀ calls r b', Q calls r b' → Q' calls r b') :
    t.Unfolds pace b Q' := by
  induction t generalizing b Q Q' with
  | done a => exact hQ _ _ _ h
  | crash => exact hQ _ _ _ h
  | clock next ih => exact ih _ h hQ
  | stopRequested next ih => exact ih _ h hQ
  | pause ms next ih => exact fun full b' hb => ih _ (h full b' hb) hQ
  | giveWay next ih => exact fun b' hb => ih (h b' hb) hQ
  | call c next ih => exact fun began b' r hb => ih _ (h began b' r hb) fun calls => hQ (_ :: calls)

/-- A task unfolds through a part as the rest of it does from there. -/
theorem unfolds_taskBind {f : α → Task R β} {Q : List (Nat × C) → Option β → Beat → Prop} :
    (t.bind f).Unfolds pace b Q ↔ t.Unfolds pace b fun calls r b' =>
      r.elim (Q calls none b') fun a => (f a).Unfolds pace b' fun more => Q (calls ++ more) := by
  induction t generalizing b Q with
  | done a => exact Iff.rfl
  | crash => exact Iff.rfl
  | clock next ih => exact ih _
  | stopRequested next ih => exact ih _
  | pause ms next ih => simp only [Task.bind, Unfolds, ih]
  | giveWay next ih => simp only [Task.bind, Unfolds, ih]
  | call c next ih => simp only [Task.bind, Unfolds, ih, List.cons_append]

/-- A task that goes on from what another ends with unfolds as that one does, and then further. -/
theorem unfolds_bind {f : α → Task R β} {Q : List (Nat × C) → Option β → Beat → Prop} :
    (t >>= f).Unfolds pace b Q ↔ t.Unfolds pace b fun calls r b' =>
      r.elim (Q calls none b') fun a => (f a).Unfolds pace b' fun more => Q (calls ++ more) :=
  unfolds_taskBind

/-- A task unfolds through its parts one after the other. -/
theorem Unfolds.bind {f : α → Task R β} {P : List (Nat × C) → Option α → Beat → Prop}
    {Q : List (Nat × C) → Option β → Beat → Prop} (h : t.Unfolds pace b P)
    (hcrash : ∀ calls b', P calls none b' → Q calls none b')
    (hf : ∀ calls a b', P calls (some a) b' →
      (f a).Unfolds pace b' fun more => Q (calls ++ more)) : (t >>= f).Unfolds pace b Q := by
  apply unfolds_bind.2
  apply h.mono
  intro calls r b' hr
  cases r with
  | none => exact hcrash calls b' hr
  | some a => exact hf calls a b' hr

/-- A task that ends at once unfolds without a call. -/
@[simp] theorem unfolds_pure {a : α} :
    (pure a : Task R α).Unfolds pace b Q ↔ Q [] (some a) b := Iff.rfl

/-- A task that has ended unfolds without a call. -/
@[simp] theorem unfolds_done {a : α} :
    (done a : Task R α).Unfolds pace b Q ↔ Q [] (some a) b := Iff.rfl

/-- To read the stop flag is to read whether it has been raised. -/
theorem unfolds_isStopped_bind {f : Bool → Task R α} :
    (isStopped >>= f).Unfolds pace b Q ↔ (f b.raised.isSome).Unfolds pace b Q := Iff.rfl

/-- A call that takes no time. -/
theorem unfolds_ask {c : C} (hc : pace c = .instant)
    {Q : List (Nat × C) → Option (R c) → Beat → Prop}
    (h : ∀ r b', b.Still b' → Q [(b.now, c)] r b') :
    (ask c : Task R (R c)).Unfolds pace b Q := by
  intro began b' r hcalls
  obtain ⟨rfl, hstill⟩ := (hc ▸ hcalls).still
  cases r with
  | none => exact h none b' hstill
  | some a => exact h (some a) b' hstill

/-- What is done at the end comes after all else, whether the task ends well or crashes. -/
theorem unfolds_ensuring {last : Task R Unit} :
    (t.ensuring last).Unfolds pace b Q ↔ t.Unfolds pace b fun calls r b' =>
      last.Unfolds pace b' fun more ended => Q (calls ++ more) (ended.bind fun _ => r) := by
  induction t generalizing b Q with
  | done a =>
    rw [ensuring, unfolds_taskBind]
    apply iff_of_eq
    apply congrArg (last.Unfolds pace b)
    funext more ended b'
    cases ended with
    | none => rfl
    | some _ => exact congrArg (Q · (some a) b') (List.append_nil more)
  | crash =>
    rw [ensuring, unfolds_taskBind]
    apply iff_of_eq
    apply congrArg (last.Unfolds pace b)
    funext more ended b'
    cases ended with
    | none => rfl
    | some _ => exact congrArg (Q · none b') (List.append_nil more)
  | clock next ih => exact ih _
  | stopRequested next ih => exact ih _
  | pause ms next ih => simp only [ensuring, Unfolds, ih]
  | giveWay next ih => simp only [ensuring, Unfolds, ih]
  | call c next ih => simp only [ensuring, Unfolds, ih, List.cons_append]

/-- A task that makes only certain calls unfolds into these, and time does not run back. -/
theorem Only.unfolds {H : C → Prop} {P : α → Prop} (h : t.Only H P) (b : Beat) :
    t.Unfolds pace b fun calls r b' =>
      (∀ e ∈ calls, H e.2 ∧ b.now ≤ e.1 ∧ e.1 ≤ b'.now) ∧ b.Later b' ∧ ∀ a ∈ r, P a := by
  induction t generalizing b with
  | done a => exact ⟨List.forall_mem_nil _, .refl b, fun _ ha => Option.some.inj ha ▸ h⟩
  | crash => exact ⟨List.forall_mem_nil _, .refl b, fun _ ha => by cases ha⟩
  | clock next ih => exact ih _ (h _) b
  | stopRequested next ih => exact ih _ (h _) b
  | pause ms next ih =>
    intro full b' hrests
    refine (ih full (h full) b').mono fun calls r b'' ⟨hcalls, hlater, hr⟩ => ?_
    refine ⟨fun e he => ?_, hrests.later.trans hlater, hr⟩
    obtain ⟨hc, hlo, hhi⟩ := hcalls e he
    exact ⟨hc, Nat.le_trans hrests.later.now_le hlo, hhi⟩
  | giveWay next ih =>
    intro b' hstill
    refine (ih h b').mono fun calls r b'' ⟨hcalls, hlater, hr⟩ => ?_
    exact ⟨hstill.now_eq ▸ hcalls, hstill.toLater.trans hlater, hr⟩
  | call c next ih =>
    intro began b' reply hcall
    refine (ih reply (h.2 reply) b').mono fun calls r b'' ⟨hcalls, hlater, hr⟩ => ?_
    refine ⟨List.forall_mem_cons.2 ⟨?_, fun e he => ?_⟩, hcall.later.trans hlater, hr⟩
    · exact ⟨h.1, hcall.le_began, Nat.le_trans hcall.began_le hlater.now_le⟩
    · obtain ⟨hc, hlo, hhi⟩ := hcalls e he
      exact ⟨hc, Nat.le_trans hcall.later.now_le hlo, hhi⟩

/-- A brisk task whose calls take no time takes none. -/
theorem Brisk.unfolds {H : C → Prop} {P : α → Prop} (hbrisk : t.Brisk) (h : t.Only H P)
    (hpace : ∀ c, H c → pace c = .instant) (b : Beat) :
    t.Unfolds pace b fun calls r b' =>
      (∀ e ∈ calls, H e.2) ∧ b.Still b' ∧ ∀ a ∈ r, P a := by
  induction t generalizing b with
  | done a => exact ⟨List.forall_mem_nil _, .refl b, fun _ ha => Option.some.inj ha ▸ h⟩
  | crash => exact ⟨List.forall_mem_nil _, .refl b, fun _ ha => by cases ha⟩
  | clock next ih => exact ih _ (hbrisk _) (h _) b
  | stopRequested next ih => exact ih _ (hbrisk _) (h _) b
  | pause ms next ih => exact hbrisk.elim
  | giveWay next ih => exact hbrisk.elim
  | call c next ih =>
    intro began b' reply hcalls
    have hstill := (hpace c h.1 ▸ hcalls).still.2
    refine (ih reply (hbrisk reply) (h.2 reply) b').mono fun calls r b'' hr => ?_
    exact ⟨List.forall_mem_cons.2 ⟨h.1, hr.1⟩, hstill.trans hr.2.1, hr.2.2⟩

/-- A task unfolds somehow, also if the flag is not raised any more. -/
theorem Unfolds.exists (h : t.Unfolds pace b Q) :
    ∃ calls r b', b'.raised = b.raised ∧ Q calls r b' := by
  induction t generalizing b Q with
  | done a => exact ⟨_, _, b, rfl, h⟩
  | crash => exact ⟨_, _, b, rfl, h⟩
  | clock next ih => exact ih _ h
  | stopRequested next ih => exact ih _ h
  | pause ms next ih =>
    obtain ⟨full, b', hrests, hraised⟩ := b.exists_rests ms
    obtain ⟨calls, r, b'', hb, hQ⟩ := ih full (h full b' hrests)
    exact ⟨calls, r, b'', hb.trans hraised, hQ⟩
  | giveWay next ih => exact ih (h b (.refl b))
  | call c next ih =>
    obtain ⟨calls, r, b', hb, hQ⟩ := ih none (h b.now b none (Beat.calls_refl _ b))
    exact ⟨_, r, b', hb, hQ⟩

end Task

end DeviceSuite
