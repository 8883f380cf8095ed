import DeviceSuite.Proofs.Task.Terms
import DeviceSuite.Task.Strand

/-!
# Tasks in company

The strands of a company go on in any order. Each has terms of its own, and the host honours them:
whatever one strand does while it goes on is, to every other strand, what its terms let others do.
So it suffices to check every task by itself; the step that keeps a company together is
`Company.Hosted.resume`.
-/

namespace DeviceSuite

variable {C : Type} {R : C → Type} {α L σ V : Type}

namespace Strand

/-- A strand abides by its terms from where it stands; one that has ended has ended as promised. -/
def Abides (T : Terms R V) (Q : V → Option α → Prop) : Strand R α → V → Prop
  | ready task, v => ∀ v', T.drifts v v' → task.Abides T Q v'
  | resting _ next, v => ∀ v' b, T.drifts v v' → T.reads v' b → (next !b).Abides T Q v'
  | waiting c next, v => ∀ v', T.drifts v v' → T.Admits c (fun v r => (next r).Abides T Q v) v'
  | calling _ c next, v => (T.pace c).lasts = true ∧
    ∀ v' r v'', T.drifts v v' → T.answers v' c r v'' → (next r).Abides T Q v''
  | ended result, _ => ∃ v, Q v result

/-- A strand still abides by its terms after what they let the others do. -/
theorem Abides.drift {T : Terms R V} {Q : V → Option α → Prop} {strand : Strand R α} {v v' : V}
    (h : strand.Abides T Q v) (hd : T.drifts v v') : strand.Abides T Q v' := by
  cases strand with
  | ready task => exact fun u hu => h u (T.drifts_trans hd hu)
  | resting due next => exact fun u b hu => h u b (T.drifts_trans hd hu)
  | waiting c next => exact fun u hu => h u (T.drifts_trans hd hu)
  | calling due c next => exact ⟨h.1, fun u r w hu => h.2 u r w (T.drifts_trans hd hu)⟩
  | ended result => exact h

/-- A strand that may do anything and promises nothing abides by its terms. -/
theorem abides_free {Q : V → Option α → Prop} (hQ : ∀ v r, Q v r) (strand : Strand R α) (v : V) :
    strand.Abides .free Q v := by
  cases strand with
  | ready task => exact fun _ _ => Task.abides_free hQ
  | resting due next => exact fun _ _ _ _ => Task.abides_free hQ
  | waiting c next => exact fun _ _ => ⟨trivial, fun _ _ _ _ _ _ _ => Task.abides_free hQ⟩
  | calling due c next => exact ⟨rfl, fun _ _ _ _ _ => Task.abides_free hQ⟩
  | ended result => exact ⟨v, hQ v result⟩

end Strand

/-- The terms of tasks that share a host: what each promises for its end, how the shared state is
seen, and what every step may make of the view. -/
structure Company {C : Type} (R : C → Type) (α L σ V : Type) where
  terms : L → Terms R V
  ends : L → V → Option α → Prop
  sees : σ → V → Prop
  grows : V → V → Prop
  grows_refl : ∀ v, grows v v
  grows_trans : ∀ {u v w}, grows u v → grows v w → grows u w

namespace Company

variable (K : Company R α L σ V)

/-- What a task may do, as far as the others are concerned. -/
def Allows (l : L) (v v' : V) : Prop :=
  (∀ other, other ≠ l → (K.terms other).drifts v v') ∧ K.grows v v'

/-- A strand abides by its terms in a shared state, which has come from a view that the others
had. -/
def Stands (l : L) (v : V) (state : σ × Strand R α) : Prop :=
  ∃ v', K.sees state.1 v' ∧ state.2.Abides (K.terms l) (K.ends l) v' ∧ K.Allows l v v'

/-- The strands of a company have labels of their own, and each abides by its terms. -/
def Together (strands : List (L × Strand R α)) (v : V) : Prop :=
  (strands.map (·.1)).Nodup ∧ ∀ e ∈ strands, e.2.Abides (K.terms e.1) (K.ends e.1) v

variable {K}

/-- A task may do nothing. -/
theorem allows_refl (l : L) (v : V) : K.Allows l v v :=
  ⟨fun other _ => (K.terms other).drifts_refl v, K.grows_refl v⟩

/-- A task may do two things if it may do each. -/
theorem Allows.trans {l : L} {u v w : V} (huv : K.Allows l u v) (hvw : K.Allows l v w) :
    K.Allows l u w :=
  ⟨fun other h => (K.terms other).drifts_trans (huv.1 other h) (hvw.1 other h),
    K.grows_trans huv.2 hvw.2⟩

/-- A strand that stands after what a task may do stands before it. -/
theorem Stands.before {l : L} {u v : V} {state : σ × Strand R α} (h : K.Stands l v state)
    (huv : K.Allows l u v) : K.Stands l u state :=
  let ⟨v', hs, ha, hv⟩ := h
  ⟨v', hs, ha, huv.trans hv⟩

/-- A company stays together while the view changes as all of its terms let it. -/
theorem Together.drift {strands : List (L × Strand R α)} {v v' : V} (h : K.Together strands v)
    (hd : ∀ e ∈ strands, (K.terms e.1).drifts v v') : K.Together strands v' :=
  ⟨h.1, fun e he => (h.2 e he).drift (hd e he)⟩

/-- A strand that goes on keeps its label. -/
theorem map_set_label {strands : List (L × Strand R α)} {i : Nat} {l : L} {strand : Strand R α}
    (hi : strands[i]? = some (l, strand)) (strand' : Strand R α) :
    (strands.set i (l, strand')).map (·.1) = strands.map (·.1) := by
  apply List.ext_getElem?
  intro j
  rw [List.map_set, List.getElem?_set]
  by_cases hij : i = j
  · subst hij
    have hlt := (List.getElem?_eq_some_iff.1 hi).1
    rw [if_pos rfl, List.length_map, if_pos hlt, List.getElem?_map, hi]
    rfl
  · rw [if_neg hij]

/-- When one strand has gone on, all others are those with other labels. -/
theorem mem_set_label {strands : List (L × Strand R α)} (hnodup : (strands.map (·.1)).Nodup) {i : Nat}
    {l : L} {strand strand' : Strand R α} (hi : strands[i]? = some (l, strand))
    {e : L × Strand R α} (he : e ∈ strands.set i (l, strand')) :
    e = (l, strand') ∨ e ∈ strands ∧ e.1 ≠ l := by
  have hlt := (List.getElem?_eq_some_iff.1 hi).1
  obtain ⟨j, hj⟩ := List.getElem?_of_mem he
  rw [List.getElem?_set] at hj
  split at hj
  · left
    simpa [hlt, eq_comm] using hj
  · next hij =>
    refine .inr ⟨List.mem_of_getElem? hj, fun heq => hij ?_⟩
    apply (List.getElem?_inj (by simpa using hlt) hnodup).1
    rw [List.getElem?_map, List.getElem?_map, hi, hj, Option.map_some, Option.map_some, heq]

/-- A company stays together when one of its strands has gone on. -/
theorem Together.set {strands : List (L × Strand R α)} {v v' : V} {i : Nat} {l : L}
    {strand strand' : Strand R α} (h : K.Together strands v) (hi : strands[i]? = some (l, strand))
    (hv : K.Allows l v v') (ha : strand'.Abides (K.terms l) (K.ends l) v') :
    K.Together (strands.set i (l, strand')) v' := by
  refine ⟨map_set_label hi strand' ▸ h.1, ?_⟩
  intro e he
  rcases mem_set_label h.1 hi he with rfl | ⟨hold, hne⟩
  · exact ha
  · exact (h.2 e hold).drift (hv.1 e.1 hne)

/-- A company takes in strands with new labels that abide by their terms. -/
theorem Together.append {strands more : List (L × Strand R α)} {v : V} (h : K.Together strands v)
    (hmore : K.Together more v) (hnew : ∀ e ∈ more, e.1 ∉ strands.map (·.1)) :
    K.Together (strands ++ more) v := by
  refine ⟨?_, fun e he => (List.mem_append.1 he).elim (h.2 e) (hmore.2 e)⟩
  rw [List.map_append]
  refine List.nodup_append.2 ⟨h.1, hmore.1, ?_⟩
  intro a ha b hb hab
  obtain ⟨e, he, rfl⟩ := List.mem_map.1 hb
  exact hnew e he (hab ▸ ha)

end Company

/-- A host honours the terms of a company: it shows them the stop flag as they read it, answers as
promised, and lets nobody do what the terms of the others exclude. -/
structure Company.Hosted (K : Company R α L σ V) (h : Host R α L σ) : Prop where
  reads : ∀ {s l v}, K.sees s v → (K.terms l).reads v (h.isStopped s l)
  announced : ∀ {s l v c}, ((K.terms l).pace c).waits = true → K.sees s v →
    ∃ v', K.sees (h.announce s l c) v' ∧ (K.terms l).drifts v v' ∧ K.Allows l v v'
  admitted : ∀ {s l c}, ((K.terms l).pace c).waits = false →
    h.announce s l c = s ∧ h.admits s l c = true
  instant : ∀ {s l v c}, ((K.terms l).pace c).lasts = false → K.sees s v → (K.terms l).may v c →
    h.admits s l c = true →
    ∃ s' r v₁ v', h.take s l c = (s', .inr r) ∧ (K.terms l).begins v c v₁ ∧
      (K.terms l).answers v₁ c r v' ∧ K.sees s' v' ∧ K.Allows l v v'
  begun : ∀ {s l v c}, ((K.terms l).pace c).lasts = true → K.sees s v → (K.terms l).may v c →
    h.admits s l c = true →
    ∃ v', (K.terms l).begins v c v' ∧ K.sees (h.accept s l c).1 v' ∧ K.Allows l v v'
  answered : ∀ {s l v c}, ((K.terms l).pace c).lasts = true → K.sees s v →
    ∃ v', (K.terms l).answers v c (h.answer s l c).2 v' ∧ K.sees (h.answer s l c).1 v' ∧
      K.Allows l v v'
  finished : ∀ {s l v r}, K.sees s v → K.ends l v r →
    ∃ v', K.sees (h.finish s l r) v' ∧ K.Allows l v v'

namespace Company.Hosted

variable {K : Company R α L σ V} {h : Host R α L σ}

/-- A call that is admitted goes as its task expects. -/
theorem take (hk : K.Hosted h) {l : L} {c : C} {next : Option (R c) → Task R α} {s : σ} {v : V}
    (ih : ∀ r s v, (next r).Abides (K.terms l) (K.ends l) v → K.sees s v →
      K.Stands l v (h.carry l (next r) s))
    (ha : (K.terms l).Admits c (fun v r => (next r).Abides (K.terms l) (K.ends l) v) v)
    (hs : K.sees s v) (admitted : h.admits s l c = true) :
    K.Stands l v (match h.take s l c with
      | (s, .inl due) => (s, .calling due c next)
      | (s, .inr reply) => h.carry l (next reply) s) := by
  cases hp : ((K.terms l).pace c).lasts with
  | false =>
    obtain ⟨s', r, v₁, v', htake, hb, hr, hs', hv⟩ := hk.instant hp hs ha.1 admitted
    rw [htake]
    have hlasts : (K.terms l).lasts c v₁ v₁ := by simp [Terms.lasts, hp]
    exact (ih r s' v' (ha.2 v₁ v₁ r v' hb hlasts hr) hs').before hv
  | true =>
    obtain ⟨v₁, hb, hs₁, hv₁⟩ := hk.begun hp hs ha.1 admitted
    have hnext : ∀ v₂ r v₃, (K.terms l).drifts v₁ v₂ → (K.terms l).answers v₂ c r v₃ →
        (next r).Abides (K.terms l) (K.ends l) v₃ := fun v₂ r v₃ hd =>
      ha.2 v₁ v₂ r v₃ hb (by simpa [Terms.lasts, hp] using hd)
    simp only [Host.take]
    by_cases hms : (h.accept s l c).2 = 0
    · obtain ⟨v₂, hr, hs₂, hv₂⟩ := hk.answered hp hs₁
      simp only [hms, ↓reduceIte]
      exact (ih _ _ v₂ (hnext v₁ _ v₂ ((K.terms l).drifts_refl v₁) hr) hs₂).before
        (hv₁.trans hv₂)
    · simp only [hms, ↓reduceIte]
      exact ⟨v₁, hs₁, ⟨hp, hnext⟩, hv₁⟩

/-- A task that is carried on as far as it goes by itself keeps its terms. -/
theorem carry (hk : K.Hosted h) {l : L} {task : Task R α} {s : σ} {v : V}
    (ha : task.Abides (K.terms l) (K.ends l) v) (hs : K.sees s v) :
    K.Stands l v (h.carry l task s) := by
  induction task generalizing s v with
  | done a =>
    obtain ⟨v', hs', hv⟩ := hk.finished hs ha
    exact ⟨v', hs', ⟨v, ha⟩, hv⟩
  | crash =>
    obtain ⟨v', hs', hv⟩ := hk.finished hs ha
    exact ⟨v', hs', ⟨v, ha⟩, hv⟩
  | clock next ih => exact ih _ (ha _) hs
  | stopRequested next ih => exact ih _ (ha _ (hk.reads hs)) hs
  | pause ms next ih =>
    have hgo : ∀ b, h.isStopped s l = b → K.Stands l v (h.carry l (next !b) s) := fun b hb =>
      ih _ (ha v b ((K.terms l).drifts_refl v) (hb ▸ hk.reads hs)) hs
    rw [Host.carry]
    split
    · next hstop => exact hgo true hstop
    · next hstop =>
      split
      · exact hgo false (by simpa using hstop)
      · exact ⟨v, hs, ha, allows_refl l v⟩
  | giveWay next ih => exact ⟨v, hs, ha, allows_refl l v⟩
  | call c next ih =>
    have hnext := fun r s v => ih r (s := s) (v := v)
    rw [Host.carry]
    cases hp : ((K.terms l).pace c).waits with
    | true =>
      obtain ⟨v', hs', hd, hv⟩ := hk.announced hp hs
      have hwaits : ∀ v'', (K.terms l).drifts v' v'' → (K.terms l).waits c v v'' := fun v'' h =>
        by simpa [Terms.waits, hp] using (K.terms l).drifts_trans hd h
      by_cases hadm : h.admits (h.announce s l c) l c = true
      · simp only [hadm, ↓reduceIte]
        have hadmits := ha v' (hwaits v' ((K.terms l).drifts_refl v'))
        exact (hk.take hnext hadmits hs' hadm).before hv
      · simp only [hadm]
        exact ⟨v', hs', fun v'' h => ha v'' (hwaits v'' h), hv⟩
    | false =>
      obtain ⟨hann, hadm⟩ := hk.admitted (s := s) hp
      simp only [hann, hadm, ↓reduceIte]
      exact hk.take hnext (ha v (by simp [Terms.waits, hp])) hs hadm

/-- A strand that is able to go on keeps its terms while it goes on. -/
theorem resume (hk : K.Hosted h) {l : L} {strand : Strand R α} {s : σ} {v : V}
    (able : h.isAble s l strand = true) (ha : strand.Abides (K.terms l) (K.ends l) v)
    (hs : K.sees s v) : K.Stands l v (h.resume l strand s) := by
  cases strand with
  | ready task => exact hk.carry (ha v ((K.terms l).drifts_refl v)) hs
  | resting due next =>
    exact hk.carry (ha v _ ((K.terms l).drifts_refl v) (hk.reads hs)) hs
  | waiting c next =>
    exact hk.take (fun r s v => hk.carry) (ha v ((K.terms l).drifts_refl v)) hs able
  | calling due c next =>
    obtain ⟨v', hr, hs', hv⟩ := hk.answered ha.1 hs
    exact (hk.carry (ha.2 v _ v' ((K.terms l).drifts_refl v) hr) hs').before hv
  | ended result => exact ⟨v, hs, ha, allows_refl l v⟩

end Company.Hosted

end DeviceSuite
