import DeviceSuite.Proofs.Run.Bare
import DeviceSuite.Proofs.Run.Books
import DeviceSuite.Proofs.TextMap

/-!
# Registries and crews of siblings

Two worlds are siblings when they differ in their helpers only. Their runs have the same numbers but
may have other identifiers, and what has come of their tours is the same but for pictures. Here it
is shown of the registries and the crews that they remain siblings.
-/

namespace DeviceSuite

/-- Changing an element and then all is the same as changing all and then the element. -/
theorem map_modify_comm {α β : Type} {m : α → β} {f : α → α} {g : β → β}
    (h : ∀ a, m (f a) = g (m a)) (l : List α) (n : Nat) :
    (l.modify n f).map m = (l.map m).modify n g := by
  apply List.ext_getElem?
  intro i
  simp only [List.getElem?_map, List.getElem?_modify]
  split <;> cases l[i]? <;> simp [h]

/-- A number is looked up by its name as it is found among the names. -/
theorem lookup_map_pair {ids : Nat → String} (numbers : List Nat) (key : String) :
    (numbers.map fun n => (ids n, n)).lookup key = numbers.find? fun n => key == ids n := by
  induction numbers with
  | nil => rfl
  | cons n rest ih =>
    rw [List.map_cons, List.lookup_cons, List.find?_cons, ih]

/-! ## Registries -/

namespace Registry

/-- Two registries with the same runs under the same numbers, but with other identifiers. -/
structure Sibling (ids ids' : Nat → String) (r r' : Registry) : Prop where
  runs : r.runs.map (·.named "") = r'.runs.map (·.named "")
  named : ∀ n state, r.run? n = some state → state.runId = ids n
  named' : ∀ n state, r'.run? n = some state → state.runId = ids' n
  active : ∃ numbers : List Nat, r.active = numbers.map (fun n => (ids n, n)) ∧
    r'.active = numbers.map fun n => (ids' n, n)

/-- Two ways to name the runs that give the same names to the same runs. -/
def Matching (ids ids' : Nat → String) : Prop := ∀ n m, ids n = ids m ↔ ids' n = ids' m

namespace Sibling

variable {ids ids' : Nat → String} {r r' : Registry}

/-- Siblings are so in either order. -/
theorem symm (h : r.Sibling ids ids' r') : r'.Sibling ids' ids r := by
  obtain ⟨numbers, hactive, hactive'⟩ := h.active
  exact ⟨h.runs.symm, h.named', h.named, numbers, hactive', hactive⟩

/-- Siblings have equally many runs. -/
theorem length (h : r.Sibling ids ids' r') : r.runs.length = r'.runs.length := by
  simpa using congrArg List.length h.runs

/-- What does not depend on the identifier of a run is the same. -/
theorem map_run? {β : Type} (h : r.Sibling ids ids' r') (n : Nat) (f : RunState → β)
    (hf : ∀ s : RunState, f (s.named "") = f s) : (r.run? n).map f = (r'.run? n).map f := by
  have hruns := congrArg (fun runs => (runs[n]?).map f) h.runs
  simpa [Function.comp_def, hf, run?] using hruns

/-- Siblings remain so when the same run of both changes alike, whatever its name is. -/
theorem update (h : r.Sibling ids ids' r') (n : Nat) {f : RunState → RunState}
    (hf : RunState.Nameless f) : (r.update n f).Sibling ids ids' (r'.update n f) := by
  have hcomm : ∀ s : RunState, (f s).named "" = f (s.named "") := fun s => (hf s "").symm
  have hnamed : ∀ {ids : Nat → String} {r : Registry},
      (∀ n state, r.run? n = some state → state.runId = ids n) →
      ∀ m state, (r.update n f).run? m = some state → state.runId = ids m := by
    intro ids r hnamed m state hstate
    simp only [run?, Registry.update, List.getElem?_modify] at hstate
    obtain ⟨state', hstate', rfl⟩ := Option.map_eq_some_iff.1 hstate
    split
    · exact (hf.runId state').trans (hnamed m state' hstate')
    · exact hnamed m state' hstate'
  refine ⟨?_, hnamed h.named, hnamed h.named', h.active⟩
  have hmap := map_modify_comm (m := fun s : RunState => s.named "") hcomm
  simp only [Registry.update, hmap, h.runs]

/-- Siblings find the same run under its names. -/
theorem find? (h : r.Sibling ids ids' r') (hids : Matching ids ids') (n : Nat) :
    r.find? (ids n) = r'.find? (ids' n) := by
  obtain ⟨numbers, hactive, hactive'⟩ := h.active
  rw [Registry.find?, Registry.find?, hactive, hactive', lookup_map_pair, lookup_map_pair]
  apply congrArg (numbers.find? ·)
  funext m
  exact Bool.eq_iff_iff.2 (by simpa using hids n m)

/-- Siblings do not find a run under a name that none has. -/
theorem find?_unknown (h : r.Sibling ids ids' r') {id id' : String} (hid : ∀ n, ids n ≠ id)
    (hid' : ∀ n, ids' n ≠ id') : r.find? id = none ∧ r'.find? id' = none := by
  obtain ⟨numbers, hactive, hactive'⟩ := h.active
  rw [Registry.find?, Registry.find?, hactive, hactive', lookup_map_pair, lookup_map_pair]
  constructor
  · exact List.find?_eq_none.2 fun n _ => by simpa using (hid n).symm
  · exact List.find?_eq_none.2 fun n _ => by simpa using (hid' n).symm

/-- A stop of a run stops the run with the same number. -/
theorem stop (h : r.Sibling ids ids' r') (hids : Matching ids ids') (n : Nat) :
    (r.stop (ids n)).Sibling ids ids' (r'.stop (ids' n)) := by
  rw [Registry.stop, Registry.stop, ← h.find? hids]
  split
  · exact h
  · exact h.update _ RunState.nameless_requestStop

/-- Siblings remain so when all active runs are stopped. -/
theorem stopAll (h : r.Sibling ids ids' r') (hids : Matching ids ids') :
    (r.active.foldl (fun r entry => r.stop entry.1) r).Sibling ids ids'
      (r'.active.foldl (fun r entry => r.stop entry.1) r') := by
  obtain ⟨numbers, hactive, hactive'⟩ := h.active
  rw [hactive, hactive', List.foldl_map, List.foldl_map]
  clear hactive hactive'
  induction numbers generalizing r r' with
  | nil => exact h
  | cons n rest ih => exact ih (h.stop hids n)

/-- Siblings remain so when the same run of both is taken off the list. -/
theorem remove (h : r.Sibling ids ids' r') (hids : Matching ids ids') (n : Nat) :
    (r.remove (ids n)).Sibling ids ids' (r'.remove (ids' n)) := by
  obtain ⟨numbers, hactive, hactive'⟩ := h.active
  refine ⟨h.runs, h.named, h.named', numbers.filter fun m => ids m != ids n, ?_, ?_⟩
  · simp only [Registry.remove, hactive, List.filter_map]
    rfl
  · have hfilter : (fun m => ids m != ids n) = fun m => ids' m != ids' n := by
      funext m
      exact Bool.eq_iff_iff.2 (by simpa using not_congr (hids m n))
    simp only [Registry.remove, hactive', List.filter_map, hfilter]
    rfl

/-- The run of a number that is among the active ones takes the place of one of the same name. -/
theorem activate (hids : Matching ids ids') (n : Nat) (numbers : List Nat) :
    ∃ numbers' : List Nat,
      Registry.activate (ids n) n (numbers.map fun n => (ids n, n)) =
        numbers'.map (fun n => (ids n, n)) ∧
      Registry.activate (ids' n) n (numbers.map fun n => (ids' n, n)) =
        numbers'.map fun n => (ids' n, n) := by
  induction numbers with
  | nil => exact ⟨[n], rfl, rfl⟩
  | cons m rest ih =>
    by_cases hname : ids m = ids n
    · have hname' : ids' m = ids' n := (hids m n).1 hname
      exact ⟨n :: rest, by simp [Registry.activate, hname], by simp [Registry.activate, hname']⟩
    · have hname' : ids' m ≠ ids' n := fun heq => hname ((hids m n).2 heq)
      obtain ⟨numbers', hrest, hrest'⟩ := ih
      exact ⟨m :: numbers', by simp [Registry.activate, hname, hrest],
        by simp [Registry.activate, hname', hrest']⟩

/-- A run that begins is added under the same number. -/
theorem launch (h : r.Sibling ids ids' r') (hids : Matching ids ids') {run run' : RunState}
    (hrun : run.named "" = run'.named "") (hid : run.runId = ids r.runs.length)
    (hid' : run'.runId = ids' r.runs.length) :
    ((r.add run).insert r.runs.length).Sibling ids ids'
      ((r'.add run').insert r.runs.length) := by
  have hadd : (r.add run).run? r.runs.length = some run := by simp [run?, add]
  have hadd' : (r'.add run').run? r.runs.length = some run' := by simp [run?, add, h.length]
  have hnamed : ∀ {ids : Nat → String} {r : Registry} {run : RunState},
      (∀ n state, r.run? n = some state → state.runId = ids n) → run.runId = ids r.runs.length →
      ∀ n state, (r.add run).run? n = some state → state.runId = ids n := by
    intro ids r run hnamed hid n state hstate
    simp only [run?, add] at hstate
    rcases Nat.lt_trichotomy n r.runs.length with hlt | rfl | hgt
    · rw [List.getElem?_append_left hlt] at hstate
      exact hnamed n state hstate
    · obtain rfl : run = state := by simpa using hstate
      exact hid
    · rw [List.getElem?_eq_none (by simp; omega)] at hstate
      cases hstate
  have hnamed₁ := hnamed h.named hid
  have hnamed₁' := hnamed h.named' (h.length ▸ hid')
  obtain ⟨numbers, hactive, hactive'⟩ := h.active
  obtain ⟨numbers', hnew, hnew'⟩ := activate hids r.runs.length numbers
  rw [insert, insert, hadd, hadd']
  refine ⟨?_, hnamed₁, hnamed₁', numbers', ?_, ?_⟩
  · simp [add, h.runs, hrun]
  · simpa [add, hid, hactive] using hnew
  · simpa [add, hid', hactive'] using hnew'

end Sibling

end Registry

/-! ## Crews -/

/-- A crew whose results are told without pictures. -/
def Crew.bare (c : Crew) : Crew :=
  { c with
    reports := c.reports.map fun e => (e.1, e.2.map TourResult.bare)
    result := c.result.map SuiteResult.bare }

namespace Crew

/-- What is reported without pictures is what was reported, but for the pictures. -/
theorem bare_report (c : Crew) (place : Nat) (outcome : Option TourResult) :
    (c.report place outcome).bare = c.bare.report place (outcome.map TourResult.bare) := by
  simp [bare, report]

/-- What is reported of a place without pictures is found there. -/
theorem lookup_bare (reports : List (Nat × Option TourResult)) (place : Nat) :
    (reports.map fun e => (e.1, e.2.map TourResult.bare)).lookup place =
      (reports.lookup place).map (·.map TourResult.bare) := by
  induction reports with
  | nil => rfl
  | cons e rest ih =>
    rw [List.map_cons, List.lookup_cons, List.lookup_cons, ih]
    split <;> rfl

/-- What has come of the tours is the same without pictures. -/
theorem outcomes_bare (c : Crew) : c.bare.outcomes = c.outcomes.map (·.map TourResult.bare) := by
  simp only [outcomes, List.map_map]
  apply List.map_congr_left
  intro place _
  simp only [bare, lookup_bare, Function.comp_apply]
  cases c.reports.lookup place <;> rfl

/-- A crew is complete whether pictures are told or not. -/
theorem isComplete_bare (c : Crew) : c.bare.isComplete = c.isComplete := by
  simp [isComplete, bare]

end Crew

end DeviceSuite
