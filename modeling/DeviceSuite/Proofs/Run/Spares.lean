import DeviceSuite.Proofs.Run.Books

/-!
# Being spared

Every task of a run relies on the others to leave some of the books alone: a tour on its calls and
its share, the lead, once all tours have ended, on the progress of the run. Whatever a task does
that has not ended, calls and the end itself, spares all others.
-/

namespace DeviceSuite

namespace Books

/-- What the others do to the books leaves a task and its calls alone; the lead, once all tours
have ended, is left alone with the progress of the run. -/
structure Spares (run : RunState) (l : Role) (b b' : Books) : Prop where
  sound : b.Sound run → b'.Sound run
  stopped : b.state.stopRequested = true → b'.state.stopRequested = true
  still : b.Open run l → b'.Open run l
  own : b.Open run l → b'.own l = b.own l
  share : b.Open run l → ∀ place, l.place? = some place → b'.share place = b.share place
  tally : l.place? = none → b.crew.isComplete = true → b'.tally = b.tally

variable {run : RunState} {b b' b'' : Books} {l other : Role}

/-- The same tally says that all tours have ended. -/
theorem isComplete_of_tally (h : b'.tally = b.tally) : b'.crew.isComplete = b.crew.isComplete := by
  obtain ⟨hsize, hreports, -⟩ : b'.crew.size = b.crew.size ∧ b'.crew.reports = b.crew.reports ∧ _ :=
    by simpa only [tally, Prod.mk.injEq] using h
  simp only [Crew.isComplete, hsize, hreports]

/-- The same tally has the same outcomes. -/
theorem outcomes_of_tally (h : b'.tally = b.tally) : b'.crew.outcomes = b.crew.outcomes := by
  obtain ⟨hsize, hreports, -⟩ : b'.crew.size = b.crew.size ∧ b'.crew.reports = b.crew.reports ∧ _ :=
    by simpa only [tally, Prod.mk.injEq] using h
  simp only [Crew.outcomes, hsize, hreports]

/-- Where nothing happens, all is spared. -/
theorem Spares.refl (run : RunState) (l : Role) (b : Books) : b.Spares run l b :=
  ⟨id, id, id, fun _ => rfl, fun _ _ _ => rfl, fun _ _ => rfl⟩

/-- What is spared twice is spared. -/
theorem Spares.trans (h : b.Spares run l b') (h' : b'.Spares run l b'') : b.Spares run l b'' where
  sound := h'.sound ∘ h.sound
  stopped := h'.stopped ∘ h.stopped
  still := h'.still ∘ h.still
  own ho := (h'.own (h.still ho)).trans (h.own ho)
  share ho place hp := (h'.share (h.still ho) place hp).trans (h.share ho place hp)
  tally hl hc :=
    (h'.tally hl (isComplete_of_tally (h.tally hl hc) ▸ hc)).trans (h.tally hl hc)

/-- To raise the flag spares everybody. -/
theorem spares_raise (run : RunState) (l : Role) (b : Books) : b.Spares run l b.raise where
  sound h := ⟨h.title, h.size, h.nodup, h.places⟩
  stopped _ := rfl
  still := by cases l <;> exact id
  own _ := rfl
  share _ _ _ := rfl
  tally _ _ := rfl

/-- To let the tours begin spares everybody. -/
theorem spares_start (run : RunState) (l : Role) (b : Books) : b.Spares run l b.start where
  sound h := ⟨h.title, h.size, h.nodup, h.places⟩
  stopped := id
  still := by cases l <;> exact id
  own _ := rfl
  share _ _ _ := rfl
  tally _ _ := rfl

/-- Two tasks of a run at one place are the same. -/
theorem Open.eq_of_place? (h : b.Open run l) (h' : b.Open run other) (hrun : l.run = other.run)
    {place : Nat} (hl : l.place? = some place) (ho : other.place? = some place) : l = other := by
  cases l with
  | lead m => cases hl
  | tour m p id =>
    cases other with
    | lead m' => cases ho
    | tour m' p' id' =>
      obtain rfl : p = place := Option.some.inj hl
      obtain rfl : p' = p := Option.some.inj ho
      obtain rfl : m = m' := hrun
      rw [h.eq_of_place h']

/-- As long as a task other than the lead has not ended, not all tours have. -/
theorem Sound.not_complete_of_ne (hs : b.Sound run) (ho : b.Open run l) (hrun : l.run = other.run)
    (hne : other ≠ l) (hother : other.place? = none) : b.crew.isComplete = false := by
  cases l with
  | tour m p id => exact hs.not_complete ho
  | lead m =>
    cases other with
    | lead m' => exact absurd (congrArg Role.lead hrun.symm) hne
    | tour m' p' id' => cases hother

/-- A call does not touch the crew. -/
@[simp] theorem crew_call (b : Books) (l : Role) (c : RunCall) :
    ((b.note l c).answered l c).crew = b.crew := by
  cases c <;> rfl

/-- A call is one more of the task that makes it. -/
theorem own_call (b : Books) (l : Role) (c : RunCall) :
    ((b.note l c).answered l c).own l = b.own l ++ [⟨l, c, b.state.stopRequested⟩] := by
  have hnote : (b.note l c).own l = b.own l ++ [⟨l, c, b.state.stopRequested⟩] := by
    simp [own, note, List.filter_append]
  cases c <;> exact hnote

/-- A call is none of any other task. -/
theorem own_call_of_ne (hne : other ≠ l) (b : Books) (c : RunCall) :
    ((b.note l c).answered l c).own other = b.own other := by
  have hnote : (b.note l c).own other = b.own other := by
    simp [own, note, List.filter_append, hne.symm]
  cases c <;> exact hnote

/-- A call is written down as the last. -/
theorem calls_call (b : Books) (l : Role) (c : RunCall) :
    ((b.note l c).answered l c).calls = b.calls ++ [⟨l, c, b.state.stopRequested⟩] := by
  cases c <;> rfl

/-- A steady call does not touch the stop flag. -/
theorem stopRequested_call {c : RunCall} (hc : c.Steady) :
    ((b.note l c).answered l c).state.stopRequested = b.state.stopRequested := by
  cases c with
  | update f => exact (hc f rfl b.state).2
  | _ => rfl

/-- A task that makes a call has not ended. -/
theorem Open.call (ho : b.Open run l) (c : RunCall) :
    ((b.note l c).answered l c).Open run l := by
  cases l with
  | lead m => trivial
  | tour m p id => exact ⟨ho.1, (crew_call b _ c).symm ▸ ho.2⟩

/-- The books stay sound when a steady call is made. -/
theorem Sound.call (hs : b.Sound run) {c : RunCall} (hc : c.Steady) :
    ((b.note l c).answered l c).Sound run := by
  have htitle : ((b.note l c).answered l c).state.title = b.state.title := by
    cases c with
    | update f => exact (hc f rfl b.state).1
    | _ => rfl
  exact ⟨htitle.trans hs.title, by simpa using hs.size, by simpa using hs.nodup,
    by simpa using hs.places⟩

/-- A call of a task leaves the others alone. -/
theorem spares_call (hs : b.Sound run) (ho : b.Open run l) (hrun : l.run = other.run)
    (hne : other ≠ l) {c : RunCall} (hc : c.Steady) :
    b.Spares run other ((b.note l c).answered l c) := by
  have hown := own_call_of_ne hne b c
  cases c with
  | update f =>
    refine ⟨fun _ => hs.call hc, fun h => (hc f rfl b.state).2.trans h, ?_, fun _ => hown, ?_, ?_⟩
    · cases other <;> exact id
    · intro ho' place hplace
      have hl : l.place? ≠ some place := fun hl => hne (ho.eq_of_place? ho' hrun hl hplace).symm
      simp [answered, book, note, hl]
    · intro hother hcomp
      rw [hs.not_complete_of_ne ho hrun hne hother] at hcomp
      cases hcomp
  | _ =>
    refine ⟨fun _ => hs.call hc, id, ?_, fun _ => hown, fun _ _ _ => rfl, fun _ _ => rfl⟩
    cases other <;> exact id

/-- The reports are those before and that of the tour that has ended. -/
theorem mem_reports_finish {m p : Nat} {id : String} {ending : Option RoleResult} {place : Nat}
    {outcome : Option TourResult} :
    (place, outcome) ∈ (b.finish (.tour m p id) ending).crew.reports ↔
      (place, outcome) ∈ b.crew.reports ∨ place = p ∧ outcome = RoleResult.tour? ending := by
  simp [finish, Crew.report]

/-- The place of a tour that has ended is among those reported. -/
theorem mem_places_finish {m p : Nat} {id : String} {ending : Option RoleResult} {place : Nat} :
    place ∈ (b.finish (.tour m p id) ending).crew.reports.map (·.1) ↔
      place ∈ b.crew.reports.map (·.1) ∨ place = p := by
  simp [finish, Crew.report]

/-- The books stay sound when a task ends. -/
theorem Sound.finish (hs : b.Sound run) (ho : b.Open run l) (ending : Option RoleResult) :
    (b.finish l ending).Sound run := by
  cases l with
  | lead m => exact ⟨hs.title, hs.size, hs.nodup, hs.places⟩
  | tour m p id =>
    have hlt : p < b.crew.size := hs.size ▸ (List.getElem?_eq_some_iff.1 ho.1).1
    refine ⟨hs.title, hs.size, ?_, ?_⟩
    · have hnodup : (b.crew.reports.map (·.1) ++ [p]).Nodup :=
        List.nodup_append.2 ⟨hs.nodup, by simp, fun q hq r hr hqr => ho.2 (by simp_all)⟩
      simpa [Books.finish, Crew.report] using hnodup
    · intro place hp
      exact (mem_places_finish.1 hp).elim (hs.places place) fun hp => hp ▸ hlt

/-- The end of a task leaves the others alone. -/
theorem spares_finish (hs : b.Sound run) (ho : b.Open run l) (hrun : l.run = other.run)
    (hne : other ≠ l) (ending : Option RoleResult) :
    b.Spares run other (b.finish l ending) := by
  refine ⟨fun _ => hs.finish ho ending, id, ?_, fun _ => rfl, fun _ _ _ => rfl, ?_⟩
  · intro ho'
    cases other with
    | lead m' => trivial
    | tour m' p' id' =>
      cases l with
      | lead m => exact ho'
      | tour m p id =>
        have hp : p' ≠ p := fun hp =>
          hne (ho'.eq_of_place? ho hrun.symm (congrArg some hp) rfl)
        exact ⟨ho'.1, fun hmem => (mem_places_finish.1 hmem).elim ho'.2 hp⟩
  · intro hother hcomp
    rw [hs.not_complete_of_ne ho hrun hne hother] at hcomp
    cases hcomp

end Books

end DeviceSuite
