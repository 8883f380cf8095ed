import DeviceSuite.Proofs.Run.Sight
import DeviceSuite.Proofs.Run.Spares
import DeviceSuite.Proofs.Task.Company

/-!
# Accords of a run

The tasks of a run may agree on more than the program makes them keep: on what they keep true of
the books, on which calls they make, on what they leave alone for the sake of another, and on how
they end. An accord is such an agreement that its tasks can observe without breaking it for each
other. The world of the runs honours it, `Accord.hosted`, whatever the tasks of other runs do.
-/

namespace DeviceSuite

/-- An agreement of the tasks of a run, given by the run as it begins and its number. -/
structure Accord (run : RunState) (n : Nat) where
  /-- What all keep true of the books. -/
  keeps : Books → Prop
  /-- What the others leave alone while a task has not ended. -/
  minds : Role → Books → Books → Prop
  may : Role → Books → RunCall → Prop
  ends : Role → Books → Option RoleResult → Prop
  /-- What every step makes of the books. -/
  grows : Books → Books → Prop
  minds_refl : ∀ l b, minds l b b
  minds_trans : ∀ {l b b' b''}, minds l b b' → minds l b' b'' → minds l b b''
  grows_refl : ∀ b, grows b b
  grows_trans : ∀ {b b' b''}, grows b b' → grows b' b'' → grows b b''
  raise : ∀ b, (keeps b → keeps b.raise) ∧ grows b b.raise ∧ ∀ l, minds l b b.raise
  start : ∀ b, (keeps b → keeps b.start) ∧ grows b b.start ∧ ∀ l, minds l b b.start
  /-- A call begins; the lead is told of the tours only when all of them have ended. -/
  call : ∀ {l b c}, l.run = n → b.Sound run → keeps b → b.Open run l → c.Steady → may l b c →
    (c = .tours → b.crew.isComplete = true) →
    let b' := (b.note l c).answered l c
    keeps b' ∧ grows b b' ∧ ∀ other, other ≠ l → other.run = n → b.Open run other → minds other b b'
  finish : ∀ {l b r}, l.run = n → b.Sound run → keeps b → b.Open run l → ends l b r →
    let b' := b.finish l r
    keeps b' ∧ grows b b' ∧ ∀ other, other ≠ l → other.run = n → b.Open run other → minds other b b'

namespace Accord

/-- An accord that asks nothing of a task for the sake of another. -/
def plain {run : RunState} {n : Nat} (keeps : Books → Prop) (may : Role → Books → RunCall → Prop)
    (ends : Role → Books → Option RoleResult → Prop) (raise : ∀ b, keeps b → keeps b.raise)
    (start : ∀ b, keeps b → keeps b.start)
    (call : ∀ {l b c}, l.run = n → b.Sound run → keeps b → b.Open run l → c.Steady → may l b c →
      keeps ((b.note l c).answered l c))
    (finish : ∀ {l b r}, l.run = n → b.Sound run → keeps b → b.Open run l → ends l b r →
      keeps (b.finish l r)) : Accord run n where
  keeps := keeps
  minds _ _ _ := True
  may := may
  ends := ends
  grows _ _ := True
  minds_refl _ _ := trivial
  minds_trans _ _ := trivial
  grows_refl _ := trivial
  grows_trans _ _ := trivial
  raise b := ⟨raise b, trivial, fun _ => trivial⟩
  start b := ⟨start b, trivial, fun _ => trivial⟩
  call hl hs hk ho hc hm _ := ⟨call hl hs hk ho hc hm, trivial, fun _ _ _ _ => trivial⟩
  finish hl hs hk ho he := ⟨finish hl hs hk ho he, trivial, fun _ _ _ _ => trivial⟩

variable {σ : Type} {run : RunState} {n : Nat} (A : Accord run n)

/-- The terms of a task under an accord. -/
def terms (l : Role) : Terms RunCall.Reply Books where
  pace := RunCall.pace
  reads b stopped := stopped = b.state.stopRequested
  drifts b b' := b.Spares run l b' ∧ (b.Sound run → A.keeps b → A.keeps b') ∧
    (b.Open run l → A.minds l b b')
  may b c := b.Open run l ∧ c.Steady ∧ A.may l b c
  begins b c b' := (b' = b.note l c ∨ c.pace.lasts = true ∧ b' = (b.note l c).raise) ∧
    (c = .tours → b.crew.isComplete = true)
  answers b c reply b' := b' = b.answered l c ∧ b.Replies c reply
  drifts_refl b := ⟨.refl run l b, fun _ => id, fun _ => A.minds_refl l b⟩
  drifts_trans h h' := ⟨h.1.trans h'.1, fun hs hk => h'.2.1 (h.1.sound hs) (h.2.1 hs hk),
    fun ho => A.minds_trans (h.2.2 ho) (h'.2.2 (h.1.still ho))⟩

/-- The tasks of all runs, where those of one run have an accord. -/
def company : Company RunCall.Reply RoleResult Role (World σ × Calls) Books where
  terms l := if l.run = n then A.terms l else .free
  ends l b ending := l.run = n → b.Open run l ∧ A.ends l b ending
  sees s b := b.Of n s ∧ b.Sound run ∧ A.keeps b
  grows := A.grows
  grows_refl := A.grows_refl
  grows_trans := A.grows_trans

variable {A} {b b' : Books} {l : Role} {w : World σ} {calls : Calls}

/-- A task of the run has the terms of the accord. -/
theorem company_terms (hl : l.run = n) : (A.company (σ := σ)).terms l = A.terms l := if_pos hl

/-- A task of another run has no terms. -/
theorem company_terms_of_ne (hl : l.run ≠ n) :
    (A.company (σ := σ)).terms l = .free := if_neg hl

/-- The books may change as they do for every task of the run. -/
theorem allows (hother : ∀ other, other ≠ l → other.run = n → (A.terms other).drifts b b')
    (hgrows : A.grows b b') : (A.company (σ := σ)).Allows l b b' := by
  refine ⟨?_, hgrows⟩
  intro other hne
  by_cases ho : other.run = n
  · rw [company_terms ho]
    exact hother other hne ho
  · rw [company_terms_of_ne ho]
    trivial

/-- Each task must bear that the flag is raised. -/
theorem drifts_raise (l : Role) (b : Books) : (A.terms l).drifts b b.raise :=
  ⟨b.spares_raise run l, fun _ => (A.raise b).1, fun _ => (A.raise b).2.2 l⟩

/-- Each task must bear that the tours begin. -/
theorem drifts_start (l : Role) (b : Books) : (A.terms l).drifts b b.start :=
  ⟨b.spares_start run l, fun _ => (A.start b).1, fun _ => (A.start b).2.2 l⟩

/-- Each task may raise the flag, as far as the others are concerned. -/
theorem allows_raise (l : Role) (b : Books) : (A.company (σ := σ)).Allows l b b.raise :=
  allows (fun other _ _ => drifts_raise other b) (A.raise b).2.1

/-- What the company keeps of the books is kept when a stop is asked for. -/
theorem kept_raise (h : b.Sound run ∧ A.keeps b) : b.raise.Sound run ∧ A.keeps b.raise :=
  ⟨(b.spares_raise run (.lead n)).sound h.1, (A.raise b).1 h.2⟩

/-- The books stay sound and as wanted when the tours begin. -/
theorem kept_start (h : b.Sound run ∧ A.keeps b) : b.start.Sound run ∧ A.keeps b.start :=
  ⟨(b.spares_start run (.lead n)).sound h.1, (A.start b).1 h.2⟩

/-- A call that the accord lets a task make keeps what the company keeps and is of no harm to the
others. -/
theorem kept_call (hl : l.run = n) (hkept : b.Sound run ∧ A.keeps b) {c : RunCall}
    (hmay : (A.terms l).may b c) (hcomplete : c = .tours → b.crew.isComplete = true) :
    (((b.note l c).answered l c).Sound run ∧ A.keeps ((b.note l c).answered l c)) ∧
      (A.company (σ := σ)).Allows l b ((b.note l c).answered l c) := by
  obtain ⟨hs, hk⟩ := hkept
  obtain ⟨ho, hc, hm⟩ := hmay
  obtain ⟨hk', hgrows, hminds⟩ := A.call hl hs hk ho hc hm hcomplete
  refine ⟨⟨hs.call hc, hk'⟩, allows (fun other hne hother => ?_) hgrows⟩
  exact ⟨Books.spares_call hs ho (hl.trans hother.symm) hne hc, fun _ _ => hk',
    hminds other hne hother⟩

/-- The books stay sound and as wanted when a task ends as the accord says. -/
theorem kept_finish (hl : l.run = n) (hkept : b.Sound run ∧ A.keeps b)
    {ending : Option RoleResult} (ho : b.Open run l) (hends : A.ends l b ending) :
    ((b.finish l ending).Sound run ∧ A.keeps (b.finish l ending)) ∧
      (A.company (σ := σ)).Allows l b (b.finish l ending) := by
  obtain ⟨hs, hk⟩ := hkept
  obtain ⟨hk', hgrows, hminds⟩ := A.finish hl hs hk ho hends
  refine ⟨⟨hs.finish ho ending, hk'⟩, allows (fun other hne hother => ?_) hgrows⟩
  exact ⟨Books.spares_finish hs ho (hl.trans hother.symm) hne ending, fun _ _ => hk',
    hminds other hne hother⟩

/-- A call that is answered at once. -/
theorem take_instant (service : Service DeviceCall.Reply σ) {c : RunCall}
    (hp : c.pace.lasts = false) (w : World σ) (l : Role) :
    (World.host service).take w l c =
      ((w.answer service l c).1, .inr (w.answer service l c).2) := by
  cases c <;> first | rfl | cases hp

/-- A call that takes time or a turn changes nothing in the books when it is answered. -/
theorem answered_of_pace {c : RunCall} (hp : c.pace ≠ .instant) (b : Books) (l : Role) :
    b.answered l c = b := by
  cases c <;> first | rfl | exact absurd rfl hp

/-- A call that may take time is not answered at once. -/
theorem ne_instant_of_lasts {c : RunCall} (hp : c.pace.lasts = true) : c.pace ≠ .instant := by
  rintro h
  rw [h] at hp
  cases hp

/-- The lead learns of the tours when all of them have ended. -/
theorem complete_of_admits {service : Service DeviceCall.Reply σ} {c : RunCall}
    (h : b.Of l.run (w, calls))
    (hadm : (World.host service).recorded.admits (w, calls) l c = true) :
    c = .tours → b.crew.isComplete = true := by
  rintro rfl
  simpa [World.admits, World.host, Host.recorded, h.2.1] using hadm

/-- A task of the run makes a call that is answered at once. -/
theorem instant_self (A : Accord run n) (service : Service DeviceCall.Reply σ) {c : RunCall}
    (hl : l.run = n) (hp : c.pace.lasts = false) (hsees : A.company.sees (w, calls) b)
    (hmay : (A.terms l).may b c)
    (hadm : (World.host service).recorded.admits (w, calls) l c = true) :
    ∃ s reply b₁ b', (World.host service).recorded.take (w, calls) l c = (s, .inr reply) ∧
      (A.terms l).begins b c b₁ ∧ (A.terms l).answers b₁ c reply b' ∧ A.company.sees s b' ∧
      (A.company (σ := σ)).Allows l b b' := by
  obtain ⟨hof, hkept⟩ := hsees
  subst hl
  have hcomplete := complete_of_admits hof hadm
  obtain ⟨hkept', hallows⟩ := kept_call (σ := σ) rfl hkept hmay hcomplete
  have hnote : (b.note l c).Of l.run (w, calls ++ [⟨l, c, w.isStopped l.run⟩]) :=
    hof.isStopped ▸ hof.record_self c _
  obtain ⟨hof', hreply⟩ := hnote.answer_self service c
  rw [Host.recorded_take, take_instant service hp]
  exact ⟨_, _, b.note l c, _, rfl, ⟨.inl rfl, hcomplete⟩, ⟨rfl, hreply⟩, ⟨hof', hkept'⟩, hallows⟩

/-- A task of the run makes a call that lasts. A stop may be asked for as it begins. -/
theorem begun_self (A : Accord run n) (service : Service DeviceCall.Reply σ) {c : RunCall}
    (hl : l.run = n) (hp : c.pace.lasts = true) (hsees : A.company.sees (w, calls) b)
    (hmay : (A.terms l).may b c)
    (hadm : (World.host service).recorded.admits (w, calls) l c = true) :
    ∃ b', (A.terms l).begins b c b' ∧
      A.company.sees ((World.host service).recorded.accept (w, calls) l c).1 b' ∧
      (A.company (σ := σ)).Allows l b b' := by
  obtain ⟨hof, hkept⟩ := hsees
  subst hl
  have hcomplete := complete_of_admits hof hadm
  have hcall := kept_call (σ := σ) rfl hkept hmay hcomplete
  rw [answered_of_pace (ne_instant_of_lasts hp)] at hcall
  obtain ⟨hkept', hallows⟩ := hcall
  rcases hof.begin_self service c with hof' | hof'
  · exact ⟨b.note l c, ⟨.inl rfl, hcomplete⟩, ⟨hof', hkept'⟩, hallows⟩
  · exact ⟨(b.note l c).raise, ⟨.inr ⟨hp, rfl⟩, hcomplete⟩, ⟨hof', kept_raise hkept'⟩,
      hallows.trans (allows_raise l _)⟩

/-- The world of the runs honours an accord. -/
theorem hosted (A : Accord run n) (service : Service DeviceCall.Reply σ) :
    A.company.Hosted (World.host service).recorded where
  reads := by
    rintro ⟨w, calls⟩ l b ⟨hof, -, -⟩
    by_cases hl : l.run = n
    · rw [company_terms hl]
      subst hl
      exact hof.isStopped
    · rw [company_terms_of_ne hl]
      trivial
  announced := by
    rintro ⟨w, calls⟩ l b c - ⟨hof, hkept⟩
    rcases hof.announce l c with hof' | hof'
    · exact ⟨b, ⟨hof', hkept⟩, Terms.drifts_refl _ b, Company.allows_refl l b⟩
    · refine ⟨b.start, ⟨hof', kept_start hkept⟩, ?_,
        allows (fun other _ _ => drifts_start other b) (A.start b).2.1⟩
      by_cases hl : l.run = n
      · rw [company_terms hl]
        exact drifts_start l b
      · rw [company_terms_of_ne hl]
        trivial
  admitted := by
    rintro ⟨w, calls⟩ l c hp
    by_cases hl : l.run = n
    · rw [company_terms hl] at hp
      cases c <;> first | exact ⟨rfl, rfl⟩ | cases hp
    · rw [company_terms_of_ne hl] at hp
      cases hp
  instant := by
    rintro ⟨w, calls⟩ l b c hp hsees hmay hadm
    by_cases hl : l.run = n
    · rw [company_terms hl] at hp hmay ⊢
      exact A.instant_self service hl hp hsees hmay hadm
    · rw [company_terms_of_ne hl] at hp
      cases hp
  begun := by
    rintro ⟨w, calls⟩ l b c hp hsees hmay hadm
    by_cases hl : l.run = n
    · rw [company_terms hl] at hp hmay ⊢
      exact A.begun_self service hl hp hsees hmay hadm
    · obtain ⟨hof, hkept⟩ := hsees
      rw [company_terms_of_ne hl]
      rcases hof.begin_other service hl c with hof' | hof'
      · exact ⟨b, trivial, ⟨hof', hkept⟩, Company.allows_refl l b⟩
      · exact ⟨b.raise, trivial, ⟨hof', kept_raise hkept⟩, allows_raise l b⟩
  answered := by
    rintro ⟨w, calls⟩ l b c hp ⟨hof, hkept⟩
    by_cases hl : l.run = n
    · rw [company_terms hl] at hp ⊢
      subst hl
      have hp : c.pace ≠ .instant := ne_instant_of_lasts hp
      obtain ⟨hof', hreply⟩ := hof.answer_self service c
      rw [answered_of_pace hp] at hof'
      exact ⟨b, ⟨(answered_of_pace hp b l).symm, hreply⟩, ⟨hof', hkept⟩,
        Company.allows_refl l b⟩
    · rw [company_terms_of_ne hl]
      exact ⟨b, trivial, ⟨hof.answer_other service hl c, hkept⟩, Company.allows_refl l b⟩
  finished := by
    rintro ⟨w, calls⟩ l b ending ⟨hof, hkept⟩ hends
    by_cases hl : l.run = n
    · obtain ⟨ho, hends⟩ := hends hl
      obtain ⟨hkept', hallows⟩ := kept_finish (σ := σ) hl hkept ho hends
      subst hl
      exact ⟨_, ⟨hof.finish_self ending, hkept'⟩, hallows⟩
    · exact ⟨b, ⟨hof.finish_other hl ending, hkept⟩, Company.allows_refl l b⟩

end Accord

end DeviceSuite
