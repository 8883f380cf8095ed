import DeviceSuite.Task.Strand

/-!
# The record of the calls

Beside what its tasks share, a host can keep a record of the calls they begin, in the order in
which they begin them. The record changes nothing: a strand goes on as it would without.
-/

namespace DeviceSuite

/-- A call that has begun, the task that makes it, and whether the stop flag was raised before. -/
structure Begun (C L : Type) where
  label : L
  call : C
  stopped : Bool

namespace Host

variable {C : Type} {R : C → Type} {α L σ : Type} (h : Host R α L σ)

/-- The host with a record of the calls. -/
def recorded : Host R α L (σ × List (Begun C L)) where
  now s := h.now s.1
  atTime time s := (h.atTime time s.1, s.2)
  isStopped s := h.isStopped s.1
  announce s l c := (h.announce s.1 l c, s.2)
  admits s := h.admits s.1
  accept s l c :=
    (((h.accept s.1 l c).1, s.2 ++ [⟨l, c, h.isStopped s.1 l⟩]), (h.accept s.1 l c).2)
  answer s l c := (((h.answer s.1 l c).1, s.2), (h.answer s.1 l c).2)
  finish s l result := (h.finish s.1 l result, s.2)

/-- The calls that a strand begins while it goes on. -/
def callsOf (l : L) (strand : Strand R α) (s : σ) : List (Begun C L) :=
  (h.recorded.resume l strand (s, [])).1.2

/-- The record does not change which strands are able to go on. -/
theorem recorded_isAble (s : σ × List (Begun C L)) (l : L) (strand : Strand R α) :
    h.recorded.isAble s l strand = h.isAble s.1 l strand := by
  cases strand <;> rfl

/-- To take a call with a record is to take it and to write it down. -/
theorem recorded_take (s : σ) (log : List (Begun C L)) (l : L) (c : C) :
    h.recorded.take (s, log) l c =
      (((h.take s l c).1, log ++ [⟨l, c, h.isStopped s l⟩]), (h.take s l c).2) := by
  simp only [take, recorded]
  by_cases hms : (h.accept s l c).2 = 0 <;> simp [hms]

/-- The record of a task that is carried on is appended to what was recorded before. -/
theorem recorded_carry (l : L) (task : Task R α) (s : σ) (log : List (Begun C L)) :
    h.recorded.carry l task (s, log) =
      (((h.carry l task s).1, log ++ (h.recorded.carry l task (s, [])).1.2),
        (h.carry l task s).2) := by
  induction task generalizing s log with
  | done a => simp [carry, recorded]
  | crash => simp [carry, recorded]
  | clock next ih => exact ih _ s log
  | stopRequested next ih => exact ih _ s log
  | pause ms next ih =>
    have hstop : h.recorded.isStopped (s, log) l = h.isStopped s l := rfl
    have hstop' : h.recorded.isStopped (s, []) l = h.isStopped s l := rfl
    simp only [carry, hstop, hstop']
    split
    · exact ih _ s log
    · split
      · exact ih _ s log
      · simp [recorded]
  | giveWay next ih => simp [carry]
  | call c next ih =>
    have hann : ∀ log : List (Begun C L),
        h.recorded.announce (s, log) l c = (h.announce s l c, log) := fun _ => rfl
    have hadm : ∀ (s : σ) (log : List (Begun C L)),
        h.recorded.admits (s, log) l c = h.admits s l c := fun _ _ => rfl
    simp only [carry, hann, hadm, recorded_take]
    split
    · rcases h.take (h.announce s l c) l c with ⟨s', due | reply⟩
      · simp
      · dsimp only
        rw [ih reply s' (log ++ _), ih reply s' ([] ++ _)]
        simp [List.append_assoc]
    · simp

/-- A strand goes on with the record as without it. -/
theorem recorded_resume (l : L) (strand : Strand R α) (s : σ) (log : List (Begun C L)) :
    h.recorded.resume l strand (s, log) =
      (((h.resume l strand s).1, log ++ h.callsOf l strand s), (h.resume l strand s).2) := by
  cases strand with
  | ready task => exact h.recorded_carry l task s log
  | resting due next => exact h.recorded_carry l _ s log
  | waiting c next =>
    simp only [callsOf, resume, recorded_take]
    rcases h.take s l c with ⟨s', due | reply⟩
    · simp
    · dsimp only
      rw [recorded_carry h l _ s' (log ++ _), recorded_carry h l _ s' ([] ++ _)]
      simp [List.append_assoc]
  | calling due c next => exact h.recorded_carry l _ _ log
  | ended result => simp [callsOf, resume]

end Host

end DeviceSuite
