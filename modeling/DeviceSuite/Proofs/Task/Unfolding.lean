import DeviceSuite.Proofs.Task.Beats
import DeviceSuite.Proofs.Task.Keeping
import DeviceSuite.Proofs.Task.Record

/-!
# Strands in time

A strand unfolds from where it stands as its task would. That stays so when other strands take their
turns, since these take no time; when the clock moves, as long as it does not move past what the
strand is due for; and when the strand takes its own turn, whose calls all begin at one instant.
-/

namespace DeviceSuite

variable {C : Type} {R : C → Type} {α L σ : Type} {pace : C → Pace} {b b' : Beat} {time : Nat}
  {Q : List (Nat × C) → Option α → Beat → Prop}

/-- A call that waits for its turn may begin later. -/
theorem Beat.Calls.of_later {p : Pace} {began : Nat} {b'' : Beat} (h : b'.Calls p began b'')
    (hlater : b.Later b') (hwaits : p.waits = true) : b.Calls p began b'' where
  later := hlater.trans h.later
  le_began := Nat.le_trans hlater.now_le h.le_began
  began_le := h.began_le
  begun hnot := by
    rw [hwaits] at hnot
    cases hnot
  answered := h.answered

namespace Strand

/-- However a strand unfolds from where it stands, its calls from now on, the result of its task,
and the beat at which the task ends are as `Q` says. -/
def Unfolds (pace : C → Pace) (Q : List (Nat × C) → Option α → Beat → Prop) :
    Strand R α → Beat → Prop
  | ready task, b => ∀ b', b.Still b' → task.Unfolds pace b' Q
  | resting due next, b =>
    ∀ full b', b.Rests (due - b.now) full b' → (next full).Unfolds pace b' Q
  | waiting c next, b => (pace c).waits = true ∧ ∀ began b' r, b.Calls (pace c) began b' →
      (next r).Unfolds pace b' fun calls => Q ((began, c) :: calls)
  | calling _ _ next, b => ∀ b' r, b.Later b' → (next r).Unfolds pace b' Q
  | ended result, b => ∃ b', b'.Later b ∧ Q [] result b'

variable {strand : Strand R α}

/-- A strand that makes only certain calls makes only those of a wider kind. -/
theorem Makes.weaken {H H' : C → Prop} {P : α → Prop} (h : strand.Makes H P)
    (hH : ∀ c, H c → H' c) : strand.Makes H' P := by
  cases strand with
  | ready task => exact Task.Only.weaken h hH
  | resting due next => exact fun full => (h full).weaken hH
  | waiting c next => exact ⟨hH c h.1, fun r => (h.2 r).weaken hH⟩
  | calling due c next => exact ⟨hH c h.1, fun r => (h.2 r).weaken hH⟩
  | ended result => exact h

/-- A strand unfolds as before when others have taken their turns. -/
theorem Unfolds.still (h : strand.Unfolds pace Q b) (hstill : b.Still b') :
    strand.Unfolds pace Q b' := by
  cases strand with
  | ready task => exact fun b'' hb => h b'' (hstill.trans hb)
  | resting due next =>
    intro full b'' hrests
    exact h full b'' ((hstill.now_eq ▸ hrests).of_still hstill)
  | waiting c next =>
    exact ⟨h.1, fun began b'' r hb => h.2 began b'' r (hb.of_later hstill.toLater h.1)⟩
  | calling due c next => exact fun b'' r hb => h b'' r (hstill.toLater.trans hb)
  | ended result =>
    obtain ⟨b₁, hb, hQ⟩ := h
    exact ⟨b₁, hb.trans hstill.toLater, hQ⟩

/-- A strand unfolds somehow, also if the flag is not raised any more. -/
theorem Unfolds.exists (h : strand.Unfolds pace Q b) :
    ∃ calls r b', (b'.raised = b.raised ∨ b'.Later b) ∧ Q calls r b' ∧
      ∀ result, strand = .ended result → calls = [] ∧ r = result := by
  have hleft : ∀ (first : List (Nat × C)) {b₁ : Beat} {t : Task R α}, b₁.raised = b.raised →
      (t.Unfolds pace b₁ fun calls => Q (first ++ calls)) →
      ∃ calls r b', (b'.raised = b.raised ∨ b'.Later b) ∧ Q calls r b' := by
    intro first b₁ t hb₁ ht
    obtain ⟨calls, r, b', hb', hQ⟩ := ht.exists
    exact ⟨_, r, b', .inl (hb'.trans hb₁), hQ⟩
  cases strand with
  | ready task =>
    obtain ⟨calls, r, b', hb', hQ⟩ := hleft [] rfl (h b (.refl b))
    exact ⟨calls, r, b', hb', hQ, nofun⟩
  | resting due next =>
    obtain ⟨full, b₁, hrests, hb₁⟩ := b.exists_rests (due - b.now)
    obtain ⟨calls, r, b', hb', hQ⟩ := hleft [] hb₁ (h full b₁ hrests)
    exact ⟨calls, r, b', hb', hQ, nofun⟩
  | waiting c next =>
    obtain ⟨calls, r, b', hb', hQ⟩ := hleft [(b.now, c)] rfl
      (h.2 b.now b none (Beat.calls_refl _ b))
    exact ⟨calls, r, b', hb', hQ, nofun⟩
  | calling due c next =>
    obtain ⟨calls, r, b', hb', hQ⟩ := hleft [] rfl (h b none (.refl b))
    exact ⟨calls, r, b', hb', hQ, nofun⟩
  | ended result =>
    obtain ⟨b', hb', hQ⟩ := h
    exact ⟨[], result, b', .inr hb', hQ, by rintro _ ⟨⟩; exact ⟨rfl, rfl⟩⟩

end Strand

namespace Host

variable (h : Host R α L σ) (l : L)

/-- A host shows a task how late it is, and whether its flag is raised. -/
def Shows (s : σ) (b : Beat) : Prop := h.now s = b.now ∧ h.isStopped s l = b.raised.isSome

/-- It is as late as before, and the flag may have been raised. -/
def Holds (b : Beat) (s : σ) : Prop := ∃ b', b.Still b' ∧ h.Shows l s b'

/-- The calls of `H` go at their pace, and no time passes in any part of a call. -/
structure Paces (pace : C → Pace) (H : C → Prop) : Prop where
  announced : ∀ {s b c}, H c → h.Shows l s b → h.Shows l (h.announce s l c) b
  accepted : ∀ {s b c}, H c → h.Shows l s b → h.Holds l b (h.accept s l c).1
  answered : ∀ {s b c}, H c → h.Shows l s b → h.Holds l b (h.answer s l c).1
  finished : ∀ {s b} r, h.Shows l s b → h.Shows l (h.finish s l r) b
  admitted : ∀ {c}, (pace c).waits = false → ∀ s, h.admits s l c = true
  instant : ∀ {c}, (pace c).lasts = false → ∀ s, (h.accept s l c).2 = 0

/-- Where a strand has come to in a turn, it unfolds as is expected of it, after the calls that have
begun in the turn. -/
def Proceeds (pace : C → Pace) (b : Beat) (Q : List (Nat × C) → Option α → Beat → Prop)
    (x : (σ × List (Begun C L)) × Strand R α) : Prop :=
  ∃ b', b.Still b' ∧ h.Shows l x.1.1 b' ∧
    x.2.Unfolds pace (fun calls => Q (x.1.2.map (fun e => (b.now, e.call)) ++ calls)) b'

variable {h l} {H : C → Prop} {s : σ}

/-- A strand that is not able to go on unfolds as before when the clock has moved, but not past the
instant at which it is due. -/
theorem unfolds_clock {strand : Strand R α} (hshows : h.Shows l s b)
    (hable : h.isAble s l strand = false) (hle : b.now ≤ time)
    (hdue : ∀ due ∈ strand.due?, time ≤ due) (hu : strand.Unfolds pace Q b) :
    strand.Unfolds pace Q { b with now := time } := by
  have hlater : b.Later { b with now := time } := ⟨hle, fun _ => id, fun _ => .inl⟩
  cases strand with
  | ready task => cases hable
  | resting due next =>
    have hopen : b.raised = none := by
      rw [isAble, hshows.2, Bool.or_eq_false_iff] at hable
      simpa using hable.1
    intro full b' hrests
    rw [hopen] at hrests
    exact hu full b' (hrests.of_later hopen hle (hdue due rfl))
  | waiting c next =>
    exact ⟨hu.1, fun began b' r hb => hu.2 began b' r (hb.of_later hlater hu.1)⟩
  | calling due c next => exact fun b' r hb => hu b' r (hlater.trans hb)
  | ended result =>
    obtain ⟨b', hb, hQ⟩ := hu
    exact ⟨b', hb.trans hlater, hQ⟩

/-- What proceeds after some calls have begun proceeds with these. -/
theorem Proceeds.record {task : Task R α} {first : List (Begun C L)} (hstill : b.Still b')
    (hp : h.Proceeds l pace b' (fun calls => Q (first.map (fun e => (b.now, e.call)) ++ calls))
      (h.recorded.carry l task (s, []))) :
    h.Proceeds l pace b Q (h.recorded.carry l task (s, first)) := by
  obtain ⟨b'', hb, hshows, hu⟩ := hp
  rw [recorded_carry] at hshows hu ⊢
  refine ⟨b'', hstill.trans hb, hshows, ?_⟩
  simpa [hstill.now_eq, List.append_assoc] using hu

namespace Paces

/-- A call that is taken at once proceeds to its reply, or stands until it is answered. -/
theorem take (hk : h.Paces l pace H) {c : C} {next : Option (R c) → Task R α} (hc : H c)
    (hs : h.Shows l s b)
    (ih : ∀ r {s b Q}, h.Shows l s b → (next r).Unfolds pace b Q →
      h.Proceeds l pace b Q (h.recorded.carry l (next r) (s, [])))
    (hu : ∀ began b' r, b.Calls (pace c) began b' →
      (next r).Unfolds pace b' fun calls => Q ((began, c) :: calls)) :
    h.Proceeds l pace b Q (h.recorded.resume l (.waiting c next) (s, [])) := by
  obtain ⟨b₁, hb₁, hs₁⟩ := hk.accepted hc hs
  rw [Host.resume, recorded_take, Host.take]
  by_cases hms : (h.accept s l c).2 = 0
  · obtain ⟨b₂, hb₂, hs₂⟩ := hk.answered hc hs₁
    have hstill := hb₁.trans hb₂
    have hcall : b.Calls (pace c) b.now b₂ :=
      ⟨hstill.toLater, Nat.le_refl _, Nat.le_of_eq hstill.now_eq.symm, fun _ => rfl,
        fun _ => hstill.now_eq⟩
    simp only [hms, ↓reduceIte, List.nil_append]
    exact Proceeds.record hstill (ih _ hs₂ (hu _ _ _ hcall))
  · simp only [hms, ↓reduceIte, List.nil_append]
    refine ⟨b₁, hb₁, hs₁, fun b₂ r hb₂ => ?_⟩
    have hlater := hb₁.toLater.trans hb₂
    exact hu b.now b₂ r ⟨hlater, Nat.le_refl _, hlater.now_le, fun _ => rfl,
      fun hnot => absurd (hk.instant hnot s) hms⟩

/-- A task that is carried on unfolds as is expected of it. -/
theorem carry (hk : h.Paces l pace H) {task : Task R α} (ht : task.Only H fun _ => True)
    (hs : h.Shows l s b) (hu : task.Unfolds pace b Q) :
    h.Proceeds l pace b Q (h.recorded.carry l task (s, [])) := by
  induction task generalizing s b Q with
  | done a => exact ⟨b, .refl b, hk.finished _ hs, b, .refl b, hu⟩
  | crash => exact ⟨b, .refl b, hk.finished _ hs, b, .refl b, hu⟩
  | clock next ih => exact ih _ (ht _) hs (hs.1 ▸ hu)
  | stopRequested next ih => exact ih _ (ht _) hs (hs.2 ▸ hu)
  | pause ms next ih =>
    have hflag : h.recorded.isStopped (s, []) l = b.raised.isSome := hs.2
    rw [Host.carry, hflag]
    cases hb : b.raised with
    | some time => exact ih false (ht _) hs (hu false b (.stopped hb))
    | none =>
      have hfull := hu true _ (.full hb)
      by_cases hms : ms = 0
      · subst hms
        have hsame : (⟨b.now + 0, none⟩ : Beat) = b := by rw [← hb, Nat.add_zero]
        simp only [Option.isSome_none, Bool.false_eq_true, ↓reduceIte]
        exact ih true (ht _) hs (hsame ▸ hfull)
      · simp only [hms, Option.isSome_none, Bool.false_eq_true, ↓reduceIte]
        refine ⟨b, .refl b, hs, fun full b' hrests => ?_⟩
        have hdue : h.recorded.now (s, []) + ms - b.now = ms := by
          rw [show h.recorded.now (s, []) = b.now from hs.1, Nat.add_sub_cancel_left]
        exact hu full b' (hdue ▸ hrests)
  | giveWay next ih => exact ⟨b, .refl b, hs, hu⟩
  | call c next ih =>
    have hs' := hk.announced ht.1 hs
    have hann : h.recorded.announce (s, []) l c = (h.announce s l c, []) := rfl
    rw [Host.carry, hann]
    split
    · exact hk.take ht.1 hs' (fun r _ _ _ hs hu => ih r (ht.2 r) hs hu) hu
    · next hadm =>
      have hwaits : (pace c).waits = true := by
        cases hwaits : (pace c).waits with
        | true => rfl
        | false => exact absurd (hk.admitted hwaits _) hadm
      exact ⟨b, .refl b, hs', hwaits, hu⟩

/-- A strand that takes its turn unfolds as is expected of it. -/
theorem resume (hk : h.Paces l pace H) {strand : Strand R α} (able : h.isAble s l strand = true)
    (hm : strand.Makes H fun _ => True) (hs : h.Shows l s b) (hu : strand.Unfolds pace Q b) :
    h.Proceeds l pace b Q (h.recorded.resume l strand (s, [])) := by
  cases strand with
  | ready task => exact hk.carry hm hs (hu b (.refl b))
  | resting due next =>
    have hrests : b.Rests (due - b.now) (!(h.isStopped s l)) b := by
      rw [hs.2]
      cases hb : b.raised with
      | some time => exact .stopped hb
      | none =>
        have hdue : due - b.now = 0 := by
          rw [isAble, hs.1, hs.2, hb] at able
          simpa [Nat.sub_eq_zero_iff_le] using able
        have hsame : (⟨b.now + 0, none⟩ : Beat) = b := by rw [← hb, Nat.add_zero]
        have hfull : b.Rests 0 true ⟨b.now + 0, none⟩ := .full hb
        rw [hdue]
        exact hsame ▸ hfull
    exact hk.carry (hm _) hs (hu _ b hrests)
  | waiting c next =>
    exact hk.take hm.1 hs (fun r _ _ _ hs hu => hk.carry (hm.2 r) hs hu) hu.2
  | calling due c next =>
    obtain ⟨b₁, hb₁, hs₁⟩ := hk.answered hm.1 hs
    exact Proceeds.record hb₁ (hk.carry (hm.2 _) hs₁ (hu b₁ _ hb₁.toLater))
  | ended result => cases able

end Paces

end Host

end DeviceSuite
