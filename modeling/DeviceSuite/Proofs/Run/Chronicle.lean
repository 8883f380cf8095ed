import DeviceSuite.Proofs.Run.Accord
import DeviceSuite.Proofs.Run.Grammar
import DeviceSuite.Proofs.Run.Events

/-!
# The chronicle of a run

The calls of a run tell its events. Every task tells only of what it is about, a tour of its device
and the lead of the run as a whole. The last event of a run is told when all tours have ended and the
run is no longer listed as active; by then its result has been archived, once, and it is the result
that the event carries. What a tour has told fits what it ends with.
-/

namespace DeviceSuite

/-- The last event of a run, by whether it was stopped. -/
def Event.ending (runId : String) (stopped : Bool) (result : SuiteResult) : Event :=
  if stopped then .stopped runId result else .complete runId result

/-- An event that is about a device does not end the run. -/
theorem Event.isTerminal_of_deviceId? {e : Event} {deviceId : String}
    (h : e.deviceId? = some deviceId) : e.isTerminal = false := by
  cases e <;> first | rfl | cases h

/-- The last event of a run is a terminal one. -/
theorem Event.isTerminal_ending (runId : String) (stopped : Bool) (result : SuiteResult) :
    (ending runId stopped result).isTerminal = true := by
  cases stopped <;> rfl

/-- The last event of a run is about no device. -/
theorem Event.deviceId?_ending (runId : String) (stopped : Bool) (result : SuiteResult) :
    (ending runId stopped result).deviceId? = none := by
  cases stopped <;> rfl

/-- The last event of a run is about that run. -/
theorem Event.runId_ending (runId : String) (stopped : Bool) (result : SuiteResult) :
    (ending runId stopped result).runId = runId := by
  cases stopped <;> rfl

/-- The first event of a run. -/
def RunState.opening (run : RunState) (now : Instant) : Event :=
  .start run.runId run.suiteId run.suiteName run.request.deviceIds run.request.scenarioIds
    run.request.repeatCount now

/-- The result that a call keeps. -/
def RunCall.archived? : RunCall → Option SuiteResult
  | archive result => some result
  | _ => none

namespace Calls

variable {own own' : Calls} {e : Begun RunCall Role}

/-- The events that calls tell. -/
def tellings (own : Calls) : List Event := own.filterMap fun e => e.call.event?

/-- Calls one after the other tell their events one after the other. -/
@[simp] theorem tellings_append : tellings (own ++ own') = tellings own ++ tellings own' :=
  List.filterMap_append

/-- A call tells its event, if it has one, before those of the later calls. -/
@[simp] theorem tellings_cons : tellings (e :: own) = e.call.event?.toList ++ tellings own := by
  unfold tellings
  rw [List.filterMap_cons]
  cases e.call.event? <;> rfl

/-- Where nobody calls, nothing is told. -/
@[simp] theorem tellings_nil : tellings [] = [] := rfl

/-- An event that is told is told by a call. -/
theorem mem_tellings {event : Event} : event ∈ tellings own ↔ ∃ e ∈ own, e.call.event? = some event :=
  List.mem_filterMap

/-- The results that calls keep. -/
def archived (own : Calls) : List SuiteResult := own.filterMap fun e => e.call.archived?

end Calls

open Calls

/-- What the events of a tour are like, by what it ends with: one with a result has told all of it,
one that could not describe its device nothing, and one that crashed not all. -/
def TourTold (runId deviceId : String) : Option TourResult → List Event → Prop
  | some (.ok d), events => d.deviceId = deviceId ∧ TourEvents runId deviceId d events ∧
    events.map Event.topic ∈ Grammar.tour.matches'
  | some (.error _), events => events = []
  | none, events => ∃ rest, rest ≠ [] ∧ events.map Event.topic ++ rest ∈ Grammar.tour.matches'

/-- Whatever a tour is told, what it tells fits what it ends with. -/
theorem Tour.told {t : Tour} {told : List (Answer RunCall.Reply)} {r : Option TourResult}
    (h : t.conduct.Yields told r) : TourTold t.run.runId t.deviceId r (eventsOf told) := by
  have hgrammar := t.ends_conduct.of_yields h
  rcases r with _ | (e | d)
  · exact hgrammar
  · exact hgrammar
  · obtain ⟨hid, hpart⟩ := t.returns_conduct.of_yields h d rfl
    exact ⟨hid, hpart, hgrammar⟩

/-- The calls of a lead that ends with a result, from the first to the last. Whether the run was
stopped is what the stop flag said when the lead was told of the tours. -/
structure Led (run : RunState) (r : SuiteResult) (own : Calls) (joined : Begun RunCall Role) :
    Prop where
  call : joined.call = .tours
  status : r.status = if joined.stopped then .stopped else .completed
  calls : ∃ now opening settling closing,
    own = opening ++ joined :: (settling ++ closing) ∧
    opening.map Begun.call =
      [.update fun s => s.withStatus .running, .emit (run.opening now)] ∧
    (∀ e ∈ settling, e.call.changes = true) ∧
    closing.map Begun.call =
      [.archive r, .retire, .emit (.ending run.runId joined.stopped r)]

/-- A call that changes the state tells no event. -/
theorem RunCall.event?_of_changes {c : RunCall} (h : c.changes = true) : c.event? = none := by
  cases c <;> first | rfl | cases h

/-- A call that changes the state keeps no result. -/
theorem RunCall.archived?_of_changes {c : RunCall} (h : c.changes = true) : c.archived? = none := by
  cases c <;> first | rfl | cases h

/-- Only the lead keeps a result. -/
theorem RunCall.archived?_of_isLeads {c : RunCall} (h : c.isLeads = false) : c.archived? = none := by
  cases c <;> first | rfl | cases h

namespace Led

variable {run : RunState} {r : SuiteResult} {own : Calls} {joined : Begun RunCall Role}

/-- What the calls of a lead say is said by the first calls and the last. -/
theorem filterMap {α : Type} {f : RunCall → Option α} (h : Led run r own joined)
    (hupdate : ∀ c : RunCall, c.changes = true → f c = none) (htours : f .tours = none) :
    ∃ now, own.filterMap (fun e => f e.call) =
      (f (.emit (run.opening now))).toList ++ ((f (.archive r)).toList ++ ((f .retire).toList ++
        (f (.emit (.ending run.runId joined.stopped r))).toList)) := by
  obtain ⟨now, opening, settling, closing, hown, hopening, hsettling, hclosing⟩ := h.calls
  have hmap : ∀ calls : Calls, calls.filterMap (fun e => f e.call) =
      (calls.map Begun.call).filterMap f := fun calls => by rw [List.filterMap_map]; rfl
  have hsettled : settling.filterMap (fun e => f e.call) = [] :=
    List.filterMap_eq_nil_iff.2 fun e he => hupdate _ (hsettling e he)
  have hone : ∀ c rest, (c :: rest).filterMap f = (f c).toList ++ rest.filterMap f := by
    intro c rest
    rw [List.filterMap_cons]
    cases f c <;> rfl
  refine ⟨now, ?_⟩
  rw [hown, List.filterMap_append, List.filterMap_cons, h.call, htours, List.filterMap_append,
    hsettled, hmap opening, hmap closing, hopening, hclosing]
  simp [hone, hupdate (.update fun s => s.withStatus .running) rfl]

/-- The lead tells the first event of the run and the last. -/
theorem tellings (h : Led run r own joined) :
    ∃ now, Calls.tellings own = [run.opening now, .ending run.runId joined.stopped r] :=
  h.filterMap (fun _ => RunCall.event?_of_changes) rfl

/-- The lead keeps the result of the run once. -/
theorem archived (h : Led run r own joined) : Calls.archived own = [r] := by
  obtain ⟨now, hown⟩ :=
    h.filterMap (f := RunCall.archived?) (fun _ => RunCall.archived?_of_changes) rfl
  exact hown

end Led

namespace Books

variable (run : RunState) (n : Nat)

/-- A call of a task of the run, which tells only of what the task is about. -/
def Voiced (e : Begun RunCall Role) : Prop :=
  match e.label with
  | .lead m => m = n ∧ ∀ event ∈ e.call.event?,
    event.runId = run.runId ∧ event.deviceId? = none
  | .tour m place id => m = n ∧ run.request.deviceIds[place]? = some id ∧
    e.call.isLeads = false ∧ e.call.Concerns run.runId id

/-- The books of a run whose tasks keep its chronicle. -/
structure Chronicled (b : Books) : Prop where
  voiced : ∀ e ∈ b.calls, Voiced run n e
  listed : ∀ id ∈ b.listed, id = run.runId
  told : ∀ place id outcome, run.request.deviceIds[place]? = some id →
    (place, outcome) ∈ b.crew.reports →
    TourTold run.runId id outcome (tellings (b.own (.tour n place id)))
  /-- The last event is told once, when the tours have ended and the run is not listed. -/
  last : ∀ earlier event later, tellings b.calls = earlier ++ event :: later →
    event.isTerminal = true → later = [] ∧ b.crew.isComplete = true ∧ b.listed = []
  result : ∀ r, b.crew.result = some r → b.crew.isComplete = true ∧
    ∃ joined, Led run r (b.own (.lead n)) joined
  /-- The lead is told of the tours when all of them have ended. -/
  joined : ∀ e ∈ b.calls, e.call = .tours → b.crew.isComplete = true

/-- The calls of a task that keeps the chronicle. -/
def MayTell (l : Role) (b : Books) (c : RunCall) : Prop :=
  match l with
  | .lead _ => b.crew.result = none ∧ (∀ event ∈ tellings b.calls, event.isTerminal = false) ∧
    ∀ event ∈ c.event?, event.runId = run.runId ∧ event.deviceId? = none ∧
      (event.isTerminal = true → b.crew.isComplete = true ∧ b.listed = [])
  | .tour _ _ id => c.isLeads = false ∧ c.Concerns run.runId id

/-- What a task ends with fits what it has told; a lead does not crash. -/
def EndsTold (l : Role) (b : Books) (ending : Option RoleResult) : Prop :=
  match l with
  | .lead _ => ∃ r joined, ending = some (.lead r) ∧ b.crew.isComplete = true ∧
    Led run r (b.own (.lead n)) joined
  | .tour _ place id => TourTold run.runId id (RoleResult.tour? ending)
    (tellings (b.own (.tour n place id)))

variable {run n} {b : Books} {l : Role} {c : RunCall}

/-- A task that may make a call has not told the last event. -/
theorem Chronicled.unfinished (h : b.Chronicled run n) (hs : b.Sound run) (ho : b.Open run l)
    (hm : MayTell run l b c) : ∀ event ∈ tellings b.calls, event.isTerminal = false := by
  cases l with
  | lead m => exact hm.2.1
  | tour m place id =>
    intro event he
    cases hterminal : event.isTerminal with
    | false => rfl
    | true =>
      obtain ⟨earlier, later, hsplit⟩ := List.append_of_mem he
      have hcomplete := (h.last earlier event later hsplit hterminal).2.1
      rw [hs.not_complete ho] at hcomplete
      cases hcomplete

/-- The last event is told by a lead when the tours have ended and the run is not listed. -/
theorem MayTell.of_terminal (hm : MayTell run l b c) {event : Event} (he : c.event? = some event)
    (hterminal : event.isTerminal = true) : b.crew.isComplete = true ∧ b.listed = [] := by
  cases l with
  | lead m => exact (hm.2.2 event he).2.2 hterminal
  | tour m place id =>
    rw [Event.isTerminal_of_deviceId? (hm.2 event he).2] at hterminal
    cases hterminal

/-- A call that keeps to the chronicle is voiced. -/
theorem MayTell.voiced (hm : MayTell run l b c) (hl : l.run = n) (ho : b.Open run l)
    (stopped : Bool) : Voiced run n ⟨l, c, stopped⟩ := by
  cases l with
  | lead m => exact ⟨hl, fun event he => ⟨(hm.2.2 event he).1, (hm.2.2 event he).2.1⟩⟩
  | tour m place id => exact ⟨hl, ho.1, hm.1, hm.2⟩

/-- A call lists no run. -/
theorem listed_call (b : Books) (l : Role) (c : RunCall) :
    ((b.note l c).answered l c).listed ⊆ b.listed := by
  cases c with
  | retire => exact fun id hid => (List.mem_filter.1 hid).1
  | _ => exact fun _ hid => hid

/-- Nothing is told after an event that one more call tells and no call before it. -/
theorem last_of_split {before earlier later : List Event} {event : Event} {told : Option Event}
    (hsplit : before ++ told.toList = earlier ++ event :: later) (hnew : event ∉ before) :
    later = [] ∧ told = some event := by
  cases told with
  | none =>
    rw [Option.toList_none, List.append_nil] at hsplit
    exact absurd (hsplit ▸ List.mem_append_right _ List.mem_cons_self) hnew
  | some event' =>
    rcases List.eq_nil_or_concat later with rfl | ⟨rest, last, rfl⟩
    · exact ⟨rfl, congrArg some (List.singleton_inj.1 (List.append_inj' hsplit rfl).2)⟩
    · have hconcat : before ++ [event'] = (earlier ++ event :: rest) ++ [last] := by
        simpa using hsplit
      obtain ⟨rfl, -⟩ := List.append_inj' hconcat rfl
      exact absurd (List.mem_append_right _ List.mem_cons_self) hnew

/-- The chronicle is kept when a call is made that keeps to it. -/
theorem Chronicled.call (h : b.Chronicled run n) (hs : b.Sound run) (hl : l.run = n)
    (ho : b.Open run l) (hm : MayTell run l b c)
    (hcomplete : c = .tours → b.crew.isComplete = true) :
    ((b.note l c).answered l c).Chronicled run n := by
  have hunfinished := h.unfinished hs ho hm
  constructor
  case voiced =>
    intro e he
    rw [calls_call, List.mem_append, List.mem_singleton] at he
    rcases he with he | rfl
    · exact h.voiced e he
    · exact hm.voiced hl ho _
  case listed => exact fun id hid => h.listed id (listed_call b l c hid)
  case told =>
    intro place id outcome hid hmem
    rw [crew_call] at hmem
    have hne : Role.tour n place id ≠ l := by
      rintro rfl
      exact ho.2 (List.mem_map_of_mem hmem)
    rw [own_call_of_ne hne]
    exact h.told place id outcome hid hmem
  case last =>
    intro earlier event later hsplit hterminal
    rw [calls_call, tellings_append] at hsplit
    have hnew : event ∉ tellings b.calls := fun he => by
      rw [hunfinished event he] at hterminal
      cases hterminal
    rw [tellings_cons, tellings_nil, List.append_nil] at hsplit
    obtain ⟨rfl, he⟩ := last_of_split hsplit hnew
    obtain ⟨hended, hlisted⟩ := hm.of_terminal he hterminal
    rw [crew_call]
    exact ⟨rfl, hended, List.subset_nil.1 (hlisted ▸ listed_call b l c)⟩
  case result =>
    intro r hr
    rw [crew_call] at hr ⊢
    have hne : Role.lead n ≠ l := by
      rintro rfl
      rw [hm.1] at hr
      cases hr
    rw [own_call_of_ne hne]
    exact h.result r hr
  case joined =>
    intro e he htours
    rw [crew_call]
    rw [calls_call, List.mem_append, List.mem_singleton] at he
    rcases he with he | rfl
    · exact h.joined e he htours
    · exact hcomplete htours

/-- The chronicle is kept when a task ends that keeps to it. -/
theorem Chronicled.finish (h : b.Chronicled run n) (hs : b.Sound run) (hl : l.run = n)
    (ho : b.Open run l) {ending : Option RoleResult} (hends : EndsTold run n l b ending) :
    (b.finish l ending).Chronicled run n := by
  cases l with
  | lead m =>
    refine ⟨h.voiced, h.listed, h.told, h.last, ?_, h.joined⟩
    obtain ⟨r, joined, rfl, hcomplete, hled⟩ := hends
    rintro r' hr
    obtain rfl : r = r' := Option.some.inj hr
    exact ⟨hcomplete, joined, hled⟩
  | tour m place id =>
    have hopen := hs.not_complete ho
    refine ⟨h.voiced, h.listed, ?_, ?_, ?_, ?_⟩
    · intro p id' outcome hid hmem
      rcases mem_reports_finish.1 hmem with hmem | ⟨rfl, rfl⟩
      · exact h.told p id' outcome hid hmem
      · obtain rfl : id = id' := Option.some.inj (ho.1.symm.trans hid)
        exact hends
    · intro earlier event later hsplit hterminal
      rw [(h.last earlier event later hsplit hterminal).2.1] at hopen
      cases hopen
    · intro r hr
      rw [(h.result r hr).1] at hopen
      cases hopen
    · intro e he htours
      rw [h.joined e he htours] at hopen
      cases hopen

/-- The chronicle of a run that begins is empty, and so it is kept. -/
theorem blank_chronicled (run : RunState) (n : Nat) : (blank run).Chronicled run n where
  voiced _ he := absurd he List.not_mem_nil
  listed _ hid := List.mem_singleton.1 hid
  told _ _ _ _ hmem := absurd hmem List.not_mem_nil
  last earlier event later hsplit := by simp [blank] at hsplit
  result r hr := by cases hr
  joined _ he := absurd he List.not_mem_nil

end Books

open Books

/-- A task other than the lead of its run is a tour. -/
theorem tour_of_ne {n : Nat} {l other : Role} (hl : l.run = n) (hrun : other.run = n)
    (hne : other ≠ l) (hother : other.place? = none) : ∃ m place id, l = .tour m place id := by
  cases other with
  | tour m place id => cases hother
  | lead m =>
    cases l with
    | tour m place id => exact ⟨m, place, id, rfl⟩
    | lead m' =>
      obtain rfl : m' = m := hl.trans hrun.symm
      exact absurd rfl hne

/-- The tasks of a run keep its chronicle, and nobody but the lead gives the run a result. -/
def chronicle (run : RunState) (n : Nat) : Accord run n where
  keeps b := b.Chronicled run n
  minds l b b' := l.place? = none → b'.crew.result = b.crew.result ∧
    ((∀ event ∈ tellings b.calls, event.isTerminal = false) →
      ∀ event ∈ tellings b'.calls, event.isTerminal = false)
  may := MayTell run
  ends := EndsTold run n
  grows _ _ := True
  minds_refl _ _ _ := ⟨rfl, id⟩
  minds_trans h h' hl := ⟨(h' hl).1.trans (h hl).1, (h' hl).2 ∘ (h hl).2⟩
  grows_refl _ := trivial
  grows_trans _ _ := trivial
  raise b := ⟨fun h => ⟨h.voiced, h.listed, h.told, h.last, h.result, h.joined⟩, trivial,
    fun _ _ => ⟨rfl, id⟩⟩
  start b := ⟨fun h => ⟨h.voiced, h.listed, h.told, h.last, h.result, h.joined⟩, trivial,
    fun _ _ => ⟨rfl, id⟩⟩
  call hl hs hk ho _ hm hcomplete := by
    refine ⟨hk.call hs hl ho hm hcomplete, trivial,
      fun other hne hrun _ hother => ⟨by rw [crew_call], ?_⟩⟩
    obtain ⟨m, place, id, rfl⟩ := tour_of_ne hl hrun hne hother
    intro hnone event hevent
    rw [calls_call, tellings_append, List.mem_append] at hevent
    rcases hevent with hevent | hevent
    · exact hnone event hevent
    · obtain ⟨e, he, hevent⟩ := mem_tellings.1 hevent
      obtain rfl := List.mem_singleton.1 he
      exact Event.isTerminal_of_deviceId? (hm.2 event hevent).2
  finish hl hs hk ho hends := by
    refine ⟨hk.finish hs hl ho hends, trivial, fun other hne hrun _ hother => ⟨?_, id⟩⟩
    obtain ⟨m, place, id, rfl⟩ := tour_of_ne hl hrun hne hother
    rfl

end DeviceSuite
