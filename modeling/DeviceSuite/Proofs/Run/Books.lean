import DeviceSuite.Proofs.Task.Record
import DeviceSuite.Proofs.Task.Terms
import DeviceSuite.Run.World

/-!
# The books of a run

The books of a run are what its tasks read and write of the shared world, seen for this run alone:
its state, its crew, the record of the calls that its tasks have begun, and where it is listed as
active. Beside them stands what no task can read, how many slots each tour has counted so far. What
other runs do leaves the books as they are, but for the stop flag, which a device may raise for all
active runs.
-/

namespace DeviceSuite

/-- A record of the calls of the tasks of all runs. -/
abbrev Calls := List (Begun RunCall Role)

/-- The place of a tour; a lead has none. -/
def Role.place? : Role → Option Nat
  | lead _ => none
  | tour _ place _ => some place

namespace Calls

/-- The last that the calls say of something. -/
def latest? {α : Type} (f : RunCall → Option α) (own : Calls) : Option α :=
  (own.filterMap fun e => f e.call).getLast?

/-- The last that calls say is what the last of them says, if it says something. -/
theorem latest?_append {α : Type} (f : RunCall → Option α) (own : Calls)
    (e : Begun RunCall Role) : latest? f (own ++ [e]) = (f e.call).or (latest? f own) := by
  unfold latest?
  rw [List.filterMap_append, List.getLast?_append]
  cases hf : f e.call <;> simp [hf]

end Calls

namespace RunState

/-- What a run keeps from its beginning to its end. -/
def title (s : RunState) : RunState :=
  { s with stopRequested := false, status := .created, devices := .empty, completedUnits := 0 }

/-- Runs with the same title have the same request. -/
theorem request_of_title {s s' : RunState} (h : s'.title = s.title) : s'.request = s.request :=
  show s'.title.request = s.title.request from congrArg RunState.request h

end RunState

namespace RunCall

/-- How a call goes. -/
def pace : RunCall → Pace
  | device _ | startVideo _ | stopVideo _ | archive _ => .prompt
  | begun | tours => .awaited
  | save _ _ => .queued
  | emit _ | update _ | progress | register _ | unregister _ | retire => .instant

/-- A call that changes the state of its run leaves the title and the stop flag as they are. -/
def Steady (c : RunCall) : Prop :=
  ∀ f, c = .update f → ∀ s : RunState, (f s).title = s.title ∧ (f s).stopRequested = s.stopRequested

/-- Whether a call changes the state of its run. -/
def changes : RunCall → Bool
  | update _ => true
  | _ => false

/-- A call that changes nothing is steady. -/
theorem steady_of_changes {c : RunCall} (h : c.changes = false) : c.Steady := by
  rintro f rfl
  cases h

end RunCall

/-- The books of a run. -/
structure Books where
  state : RunState
  crew : Crew
  calls : Calls
  /-- The identifiers under which alone the run may be listed as active. -/
  listed : List String
  /-- The slots counted by the tours, by their places. -/
  share : Nat → Nat

namespace Books

/-- The books of a run that begins. -/
def blank (run : RunState) : Books where
  state := run
  crew := .new run.request.deviceIds.length
  calls := []
  listed := [run.runId]
  share _ := 0

/-- Raise the stop flag. -/
def raise (b : Books) : Books := { b with state := b.state.requestStop }

/-- Let the tours begin. -/
def start (b : Books) : Books := { b with crew := b.crew.start }

/-- Write down a call that begins. -/
def note (b : Books) (l : Role) (c : RunCall) : Books :=
  { b with calls := b.calls ++ [⟨l, c, b.state.stopRequested⟩] }

/-- Change the state, on account of a task. -/
def book (b : Books) (l : Role) (f : RunState → RunState) : Books :=
  { b with
    state := f b.state
    share := fun place =>
      if l.place? = some place then
        b.share place + ((f b.state).completedUnits - b.state.completedUnits).toNat
      else b.share place }

/-- The books after a call has ended. -/
def answered (b : Books) (l : Role) : RunCall → Books
  | .update f => b.book l f
  | .retire => { b with listed := b.listed.filter (· != b.state.runId) }
  | _ => b

/-- What a call is answered; a device may leave it at that. -/
def Replies (b : Books) : (c : RunCall) → Option c.Reply → Prop
  | .device _, _ => True
  | .tours, reply => reply = some b.crew.outcomes
  | _, reply => reply.isSome

/-- The books after a task has ended. -/
def finish (b : Books) (l : Role) (ending : Option RoleResult) : Books :=
  { b with
    crew := match l with
      | .lead _ => b.crew.close (RoleResult.lead? ending)
      | .tour _ place _ => b.crew.report place (RoleResult.tour? ending) }

/-- The calls that a task has begun. -/
def own (b : Books) (l : Role) : Calls := b.calls.filter fun e => e.label = l

/-- The books of a run are sound: the run is the one that began, and of its tours each that has
ended is reported once. -/
structure Sound (run : RunState) (b : Books) : Prop where
  title : b.state.title = run.title
  size : b.crew.size = run.request.deviceIds.length
  nodup : (b.crew.reports.map (·.1)).Nodup
  places : ∀ place ∈ b.crew.reports.map (·.1), place < b.crew.size

/-- A task has not ended; a tour is that of the device at its place. -/
def Open (run : RunState) (b : Books) : Role → Prop
  | .lead _ => True
  | .tour _ place deviceId =>
    run.request.deviceIds[place]? = some deviceId ∧ place ∉ b.crew.reports.map (·.1)

/-- The part of the books that nothing changes once all tours have ended, but for the lead. -/
def tally (b : Books) : Nat × List (Nat × Option TourResult) × TextMap DeviceProgress × UInt64 ×
    (Nat → Nat) :=
  (b.crew.size, b.crew.reports, b.state.devices, b.state.completedUnits, b.share)

variable {run : RunState} {b b' : Books} {l l' : Role}

/-- In sound books the request is that of the run that began. -/
theorem Sound.request (h : b.Sound run) : b.state.request = run.request :=
  RunState.request_of_title h.title

/-- In sound books the number of units is that of the run that began. -/
theorem Sound.totalUnits (h : b.Sound run) : b.state.totalUnits = run.totalUnits :=
  show b.state.title.totalUnits = run.title.totalUnits from congrArg RunState.totalUnits h.title

/-- The books of a run that begins are sound. -/
theorem blank_sound (run : RunState) : (blank run).Sound run :=
  ⟨rfl, rfl, List.nodup_nil, fun _ h => absurd h List.not_mem_nil⟩

/-- In the books of a run that begins no tour has ended. -/
theorem blank_open {n place : Nat} {id : String} (h : run.request.deviceIds[place]? = some id) :
    (blank run).Open run (.tour n place id) :=
  ⟨h, List.not_mem_nil⟩

/-- What is answered at once does not crash. -/
theorem Replies.isSome {c : RunCall} {reply : Option c.Reply} (h : b.Replies c reply)
    (hp : c.pace = .instant) : reply.isSome = true := by
  cases c <;> first | exact h | cases hp

/-- The tours that have ended are not all as long as one has not. -/
theorem Sound.not_complete (h : b.Sound run) {n place : Nat} {id : String}
    (ho : b.Open run (.tour n place id)) : b.crew.isComplete = false := by
  obtain ⟨hid, hplace⟩ := ho
  have hlt : place < b.crew.size := h.size ▸ (List.getElem?_eq_some_iff.1 hid).1
  have hsub : place :: b.crew.reports.map (·.1) ⊆ List.range b.crew.size := fun q hq => by
    rcases List.mem_cons.1 hq with rfl | hq
    · exact List.mem_range.2 hlt
    · exact List.mem_range.2 (h.places q hq)
  have hlen := (List.nodup_cons.2 ⟨hplace, h.nodup⟩).length_le_of_subset hsub
  simp only [List.length_cons, List.length_map, List.length_range] at hlen
  simp only [Crew.isComplete, beq_eq_false_iff_ne]
  omega

/-- When each tour is reported, all of them have ended. -/
theorem Sound.isComplete_of_forall (h : b.Sound run)
    (hall : ∀ place < b.crew.size, place ∈ b.crew.reports.map (·.1)) : b.crew.isComplete = true := by
  have hle := h.nodup.length_le_of_subset
    (fun place hplace => List.mem_range.2 (h.places place hplace))
  have hge := (List.nodup_range (n := b.crew.size)).length_le_of_subset
    (fun place hplace => hall place (List.mem_range.1 hplace))
  simp only [List.length_map, List.length_range] at hle hge
  simp only [Crew.isComplete, beq_iff_eq]
  omega

/-- When all tours have ended, each of them is reported. -/
theorem Sound.mem_reports (h : b.Sound run) (hc : b.crew.isComplete = true) {place : Nat}
    (hlt : place < run.request.deviceIds.length) : place ∈ b.crew.reports.map (·.1) := by
  apply Decidable.byContradiction
  intro hplace
  have ho : b.Open run (.tour 0 place run.request.deviceIds[place]) :=
    ⟨List.getElem?_eq_getElem hlt, hplace⟩
  rw [h.not_complete ho] at hc
  cases hc

/-- In sound books what is reported of a place is found there. -/
theorem Sound.lookup_reports (h : b.Sound run) {place : Nat} {outcome : Option TourResult}
    (hmem : (place, outcome) ∈ b.crew.reports) : b.crew.reports.lookup place = some outcome := by
  obtain ⟨before, after, hsplit⟩ := List.append_of_mem hmem
  refine List.lookup_eq_some_iff.2 ⟨before, after, hsplit, ?_⟩
  intro e he
  have hnodup := h.nodup
  rw [hsplit, List.map_append, List.map_cons] at hnodup
  have hne : e.1 ≠ place := (List.nodup_append.1 hnodup).2.2 e.1 (List.mem_map_of_mem he) place
    List.mem_cons_self
  simpa using hne.symm

/-- When all tours have ended, the outcomes that the lead is told are those that are reported. -/
theorem Sound.mem_zip_outcomes (h : b.Sound run) (hc : b.crew.isComplete = true) {id : String}
    {outcome : Option TourResult} :
    (id, outcome) ∈ run.request.deviceIds.zip b.crew.outcomes ↔
      ∃ place, run.request.deviceIds[place]? = some id ∧ (place, outcome) ∈ b.crew.reports := by
  rw [List.mem_iff_getElem?]
  apply exists_congr
  intro place
  rw [List.getElem?_zip_eq_some]
  apply and_congr_right
  intro hid
  have hlt : place < b.crew.size := h.size ▸ (List.getElem?_eq_some_iff.1 hid).1
  obtain ⟨e, he, rfl⟩ := List.mem_map.1 (h.mem_reports hc (h.size ▸ hlt))
  have hlookup := h.lookup_reports he
  have houtcome : b.crew.outcomes[e.1]? = some e.2 := by
    simp [Crew.outcomes, hlt, hlookup]
  rw [houtcome]
  constructor
  · intro heq
    obtain rfl : e.2 = outcome := Option.some.inj heq
    exact he
  · intro hmem
    exact congrArg some (Option.some.inj (hlookup.symm.trans (h.lookup_reports hmem)))

/-- Two tours that have not ended at one place are the same. -/
theorem Open.eq_of_place {n place : Nat} {id id' : String}
    (h : b.Open run (.tour n place id)) (h' : b.Open run (.tour n place id')) : id = id' :=
  Option.some.inj (h.1.symm.trans h'.1)

end Books

end DeviceSuite
