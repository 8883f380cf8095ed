import DeviceSuite.Proofs.Task.Minutes
import DeviceSuite.Proofs.Task.Twins

/-!
# Hosts abreast

Two hosts keep abreast of each other when they say the same of the time and the stop flags, treat
corresponding calls alike, and let a call that one task makes on its own pass at once without
losing step. Twins that go on before such hosts stay twins, `Abreast.resume`, and minutes taken of
both show the same calls, apart from those made aside.
-/

namespace DeviceSuite

variable {C : Type} {R : C → Type} {α β L σ τ : Type}

namespace Host

/-- What it takes for two hosts to keep abreast of each other, as the tasks with one label see
them. -/
structure Abreast (h : Host R α L σ) (h' : Host R β L τ) (l : L) (P : Pairing R)
    (E : α → β → Prop) (S : σ → τ → Prop) : Prop where
  now : ∀ {s s'}, S s s' → h.now s = h'.now s'
  stopped : ∀ {s s'}, S s s' → h.isStopped s l = h'.isStopped s' l
  announced : ∀ {s s' c c'}, P.pairs c c' → S s s' → S (h.announce s l c) (h'.announce s' l c')
  admitted : ∀ {s s' c c'}, P.pairs c c' → S s s' → h.admits s l c = h'.admits s' l c'
  accepted : ∀ {s s' c c'}, P.pairs c c' → S s s' →
    S (h.accept s l c).1 (h'.accept s' l c').1 ∧ (h.accept s l c).2 = (h'.accept s' l c').2
  answered : ∀ {s s' c c'}, P.pairs c c' → S s s' →
    S (h.answer s l c).1 (h'.answer s' l c').1 ∧
      Option.Rel (P.heard c c') (h.answer s l c).2 (h'.answer s' l c').2
  asideLeft : ∀ {s s' c}, P.aside c → S s s' → h.admits (h.announce s l c) l c = true ∧
    ∃ s₁ r, h.take (h.announce s l c) l c = (s₁, .inr (some r)) ∧ S s₁ s'
  asideRight : ∀ {s s' c}, P.aside c → S s s' → h'.admits (h'.announce s' l c) l c = true ∧
    ∃ s₁ r, h'.take (h'.announce s' l c) l c = (s₁, .inr (some r)) ∧ S s s₁
  finished : ∀ {s s' r r'}, Option.Rel E r r' → S s s' → S (h.finish s l r) (h'.finish s' l r')

namespace Abreast

variable {h : Host R α L σ} {h' : Host R β L τ} {l : L} {P : Pairing R} {E : α → β → Prop}
  {S : σ → τ → Prop} {s : σ} {s' : τ} {c c' : C}

/-- Calls that correspond are taken alike: both take the same time, or both are replied to at
once. -/
theorem take (hh : h.Abreast h' l P E S) (hc : P.pairs c c') (hs : S s s') :
    ∃ s₁ s₁', S s₁ s₁' ∧
      ((∃ due, h.take s l c = (s₁, .inl due) ∧ h'.take s' l c' = (s₁', .inl due)) ∨
        ∃ r r', Option.Rel (P.heard c c') r r' ∧ h.take s l c = (s₁, .inr r) ∧
          h'.take s' l c' = (s₁', .inr r')) := by
  obtain ⟨hs₁, hms⟩ := hh.accepted hc hs
  simp only [Host.take, ← hms]
  by_cases hzero : (h.accept s l c).2 = 0
  · obtain ⟨hs₂, hr⟩ := hh.answered hc hs₁
    exact ⟨_, _, hs₂, .inr ⟨_, _, hr, by simp [hzero], by simp [hzero]⟩⟩
  · refine ⟨_, _, hs₁, .inl ⟨h.now (h.accept s l c).1 + (h.accept s l c).2, ?_, ?_⟩⟩
    · simp [hzero]
    · simp [hzero, hh.now hs₁]

/-- What has come of two strands that went on. -/
def Twins (P : Pairing R) (E : α → β → Prop) (S : σ → τ → Prop) (x : σ × Strand R α)
    (y : τ × Strand R β) : Prop :=
  S x.1 y.1 ∧ x.2.Twin P E y.2

/-- Twins whose calls are taken stay twins. -/
theorem twins_take (hh : h.Abreast h' l P E S) {next : Option (R c) → Task R α}
    {next' : Option (R c') → Task R β}
    (ih : ∀ r r', Option.Rel (P.heard c c') r r' → ∀ {s s'}, S s s' →
      Twins P E S (h.carry l (next r) s) (h'.carry l (next' r') s'))
    (hc : P.pairs c c')
    (hnext : ∀ r r', Option.Rel (P.heard c c') r r' → (next r).Twin P E (next' r'))
    (hs : S s s') :
    Twins P E S
      (match h.take s l c with
        | (s, .inl due) => (s, .calling due c next)
        | (s, .inr reply) => h.carry l (next reply) s)
      (match h'.take s' l c' with
        | (s', .inl due) => (s', .calling due c' next')
        | (s', .inr reply) => h'.carry l (next' reply) s') := by
  obtain ⟨s₁, s₁', hs₁, ⟨due, htake, htake'⟩ | ⟨r, r', hr, htake, htake'⟩⟩ := hh.take hc hs
  · rw [htake, htake']
    exact ⟨hs₁, .calling hc hnext⟩
  · rw [htake, htake']
    exact ih r r' hr hs₁

/-- Twins that are carried on stay twins. -/
theorem carry (hh : h.Abreast h' l P E S) {t : Task R α} {u : Task R β} (htwin : t.Twin P E u)
    (hs : S s s') : Twins P E S (h.carry l t s) (h'.carry l u s') := by
  induction htwin generalizing s s' with
  | done hab => exact ⟨hh.finished (.some hab) hs, .ended (.some hab)⟩
  | crash => exact ⟨hh.finished .none hs, .ended .none⟩
  | clock _ ih =>
    simp only [Host.carry, ← hh.now hs]
    exact ih _ hs
  | stopRequested _ ih =>
    simp only [Host.carry, ← hh.stopped hs]
    exact ih _ hs
  | pause hnext ih =>
    simp only [Host.carry, ← hh.stopped hs, ← hh.now hs]
    split
    · exact ih false hs
    · split
      · exact ih true hs
      · exact ⟨hs, .resting hnext⟩
  | giveWay hnext => exact ⟨hs, .ready hnext⟩
  | call hc hnext ih =>
    have hs₁ := hh.announced hc hs
    simp only [Host.carry, ← hh.admitted hc hs₁]
    split
    · exact hh.twins_take (fun r r' hr _ _ hs => ih r r' hr hs) hc hnext hs₁
    · exact ⟨hs₁, .waiting hc hnext⟩
  | clockLeft _ ih => exact ih _ hs
  | clockRight _ ih => exact ih _ hs
  | asideLeft hc _ ih =>
    obtain ⟨hadm, s₁, r, htake, hs₁⟩ := hh.asideLeft hc hs
    simp only [Host.carry, hadm, htake, ↓reduceIte]
    exact ih r hs₁
  | asideRight hc _ ih =>
    obtain ⟨hadm, s₁, r, htake, hs₁⟩ := hh.asideRight hc hs
    rw [Host.carry.eq_def h']
    simp only [hadm, htake, ↓reduceIte]
    exact ih r hs₁

/-- Twins are able to go on at the same time. -/
theorem isAble (hh : h.Abreast h' l P E S) {strand : Strand R α} {strand' : Strand R β}
    (htwin : strand.Twin P E strand') (hs : S s s') :
    h.isAble s l strand = h'.isAble s' l strand' := by
  cases htwin with
  | ready => rfl
  | resting => simp only [Host.isAble, hh.stopped hs, hh.now hs]
  | waiting hc => exact hh.admitted hc hs
  | calling => simp only [Host.isAble, hh.now hs]
  | ended => rfl

/-- Twins that go on stay twins. -/
theorem resume (hh : h.Abreast h' l P E S) {strand : Strand R α} {strand' : Strand R β}
    (htwin : strand.Twin P E strand') (hs : S s s') :
    Twins P E S (h.resume l strand s) (h'.resume l strand' s') := by
  cases htwin with
  | ready htwin => exact hh.carry htwin hs
  | resting hnext =>
    simp only [Host.resume, ← hh.stopped hs]
    exact hh.carry (hnext _) hs
  | waiting hc hnext =>
    exact hh.twins_take (fun r r' hr _ _ hs => hh.carry (hnext r r' hr) hs) hc hnext hs
  | calling hc hnext =>
    obtain ⟨hs₁, hr⟩ := hh.answered hc hs
    exact hh.carry (hnext _ _ hr) hs₁
  | ended hr => exact ⟨hs, .ended hr⟩

/-- Hosts that keep abreast do so with minutes, which show the same of all that is worth noting,
if nothing that is done aside is. -/
theorem minuted (hh : h.Abreast h' l P E S) (notes : Minute R L → Bool)
    (hbegun : ∀ {c c'}, P.pairs c c' →
      [Minute.begun l c].filter notes = [Minute.begun l c'].filter notes)
    (hanswered : ∀ {c c' r r'}, P.pairs c c' → Option.Rel (P.heard c c') r r' →
      [Minute.answered l c r].filter notes = [Minute.answered l c' r'].filter notes)
    (haside : ∀ {c}, P.aside c →
      notes (.begun l c) = false ∧ ∀ r, notes (.answered l c r) = false) :
    h.minuted.Abreast h'.minuted l P E fun x y =>
      S x.1 y.1 ∧ x.2.filter notes = y.2.filter notes := by
  have hidle : ∀ {c r}, P.aside c →
      [Minute.begun l c, Minute.answered l c r].filter notes = [] := by
    intro c r hc
    obtain ⟨hbegin, hanswer⟩ := haside hc
    simp [hbegin, hanswer]
  constructor
  case now => exact fun hs => hh.now hs.1
  case stopped => exact fun hs => hh.stopped hs.1
  case announced => exact fun hc hs => ⟨hh.announced hc hs.1, hs.2⟩
  case admitted => exact fun hc hs => hh.admitted hc hs.1
  case accepted =>
    intro s s' c c' hc hs
    obtain ⟨hs₁, hms⟩ := hh.accepted hc hs.1
    refine ⟨⟨hs₁, ?_⟩, hms⟩
    simp only [Host.minuted, List.filter_append, hs.2, hbegun hc]
  case answered =>
    intro s s' c c' hc hs
    obtain ⟨hs₁, hr⟩ := hh.answered hc hs.1
    refine ⟨⟨hs₁, ?_⟩, hr⟩
    simp only [Host.minuted, List.filter_append, hs.2, hanswered hc hr]
  case asideLeft =>
    rintro ⟨s, log⟩ ⟨s', log'⟩ c hc ⟨hs, hlog⟩
    obtain ⟨hadm, s₁, r, htake, hs₁⟩ := hh.asideLeft hc hs
    refine ⟨hadm, (s₁, log ++ [.begun l c, .answered l c (some r)]), r, ?_, hs₁, ?_⟩
    · refine (h.minuted_take (h.announce s l c) log l c).trans ?_
      simp only [minutesOfTake, htake]
    · simpa only [List.filter_append, hidle hc, List.append_nil] using hlog
  case asideRight =>
    rintro ⟨s, log⟩ ⟨s', log'⟩ c hc ⟨hs, hlog⟩
    obtain ⟨hadm, s₁, r, htake, hs₁⟩ := hh.asideRight hc hs
    refine ⟨hadm, (s₁, log' ++ [.begun l c, .answered l c (some r)]), r, ?_, hs₁, ?_⟩
    · refine (h'.minuted_take (h'.announce s' l c) log' l c).trans ?_
      simp only [minutesOfTake, htake]
    · simpa only [List.filter_append, hidle hc, List.append_nil] using hlog
  case finished => exact fun hr hs => ⟨hh.finished hr hs.1, hs.2⟩

/-- The minutes of twins that go on show the same of what is worth noting. -/
theorem minutesOf {notes : Minute R L → Bool}
    (hh : h.minuted.Abreast h'.minuted l P E fun x y =>
      S x.1 y.1 ∧ x.2.filter notes = y.2.filter notes)
    {strand : Strand R α} {strand' : Strand R β} (htwin : strand.Twin P E strand') (hs : S s s') :
    Twins P E S (h.resume l strand s) (h'.resume l strand' s') ∧
      (h.minutesOf l strand s).filter notes = (h'.minutesOf l strand' s').filter notes := by
  have hstart : S (s, ([] : List (Minute R L))).1 (s', ([] : List (Minute R L))).1 ∧
      ([] : List (Minute R L)).filter notes = ([] : List (Minute R L)).filter notes := ⟨hs, rfl⟩
  have hboth := hh.resume htwin hstart
  rw [h.minuted_resume, h'.minuted_resume] at hboth
  exact ⟨⟨hboth.1.1, hboth.2⟩, hboth.1.2⟩

end Abreast

end Host

end DeviceSuite
