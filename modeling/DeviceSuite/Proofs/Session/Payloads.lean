import DeviceSuite.Proofs.Session.Narrative
import DeviceSuite.Proofs.Session.Slots

/-!
# What is told agrees with the results

In every history of a session, the events of a run carry its results. A device that ends well has
told every record of every slot that was run, in order, the result of each of these slots, and its
own; and the result that the last event of the run carries is the one that is kept, once, and the
one that the run ends with. It has the results of the devices that ended well, in the order of the
request.
-/

namespace DeviceSuite

open Calls

/-- The result of a run that an event carries. -/
def Event.suite? : Event → Option SuiteResult
  | complete _ result | stopped _ result => some result
  | _ => none

/-- A name that is given once is given to one. -/
theorem filter_key_eq {α β : Type} [DecidableEq β] {f : α → β} {items : List α}
    (hnodup : (items.map f).Nodup) {a : α} (ha : a ∈ items) :
    (items.filter fun x => f x = f a) = [a] := by
  induction items with
  | nil => cases ha
  | cons x items ih =>
    obtain ⟨hx, hnodup⟩ := List.nodup_cons.1 hnodup
    rcases List.mem_cons.1 ha with rfl | ha
    · rw [List.filter_cons_of_pos (by simp)]
      congr 1
      apply List.filter_eq_nil_iff.2
      intro y hy
      simp only [decide_eq_true_eq]
      exact fun heq => hx (heq ▸ List.mem_map_of_mem hy)
    · have hne : f x ≠ f a := fun heq => hx (heq ▸ List.mem_map_of_mem ha)
      rw [List.filter_cons_of_neg (by simpa using hne)]
      exact ih hnodup ha

/-- Only the last event of a run carries its result. -/
theorem Event.suite?_of_isTerminal {e : Event} (h : e.isTerminal = false) : e.suite? = none := by
  cases e <;> first | rfl | cases h

namespace Books

variable {run : RunState} {n : Nat} {b : Books} {scenarios : List Graph}

/-- The results of the tours are in the order of the request. -/
theorem InAccount.okayed_ids (h : b.InAccount run scenarios) (hs : b.Sound run)
    (hcomplete : b.crew.isComplete = true) :
    (okayed b.crew.outcomes).map DeviceResult.deviceId =
      okayedIds run.request.deviceIds b.crew.outcomes := by
  apply DeviceSuite.okayed_ids
  · rw [← hs.size, Crew.outcomes, List.length_map, List.length_range]
  · intro id d hmem
    obtain ⟨place, hid, hreport⟩ := (hs.mem_zip_outcomes hcomplete).1 hmem
    exact Option.some.inj ((h.reports place d hreport).1.symm.trans hid)

/-- Each result of a tour is among those that are collected. -/
theorem Sound.mem_okayed (hs : b.Sound run) {place : Nat} {d : DeviceResult}
    (h : (place, some (.ok d)) ∈ b.crew.reports) : d ∈ okayed b.crew.outcomes := by
  have hlt := hs.places place (List.mem_map_of_mem h)
  have houtcome : some (.ok d) ∈ b.crew.outcomes := by
    rw [Crew.outcomes, List.mem_map]
    exact ⟨place, List.mem_range.2 hlt, by rw [hs.lookup_reports h]; rfl⟩
  exact List.mem_filterMap.2 ⟨_, houtcome, rfl⟩

/-- Only the lead of a run keeps a result. -/
theorem Chronicled.archived (h : b.Chronicled run n) :
    Calls.archived b.calls = Calls.archived (b.own (.lead n)) := by
  apply Calls.filterMap_ofTask
  intro e he hl
  have hvoiced := h.voiced e he
  rw [Voiced] at hvoiced
  split at hvoiced
  · next m hlabel => exact absurd (hvoiced.1 ▸ hlabel) hl
  · exact RunCall.archived?_of_isLeads hvoiced.2.2.1

end Books

namespace Session

variable {σ : Type} {s : Session σ} {calls : Calls} {n : Nat} {request : Request}
  {scenarios : List Graph} {state : RunState}

/-- What is told of a run under way carries the results. -/
structure Agrees (s : Session σ) (calls : Calls) (n : Nat) (request : Request) (state : RunState)
    (crew : Crew) : Prop where
  found : s.world.registry.run? n = some state
  manned : s.world.crew? n = some crew
  /-- The events of a device that has ended well carry its records and results. -/
  devices : ∀ place id d, request.deviceIds[place]? = some id →
    (place, some (.ok d)) ∈ crew.reports →
    TourEvents state.runId id d (Event.about id (tellings (calls.ofRun n))) ∧
      (Event.about id (tellings (calls.ofRun n))).filterMap Event.slot? = d.ran
  /-- The result of the run has the results that the devices have told. -/
  collected : ∀ r, s.result? n = some r →
    r.deviceResults.map DeviceResult.deviceId = okayedIds request.deviceIds crew.outcomes ∧
    ∀ place id d, request.deviceIds[place]? = some id → (place, some (.ok d)) ∈ crew.reports →
      (Event.about id (tellings (calls.ofRun n))).filterMap Event.device? = [d] ∧
        r.deviceResults.filter (fun d' => d'.deviceId = id) = [d]
  /-- The result is kept once, and the last event carries it. -/
  kept : ∀ r, s.result? n = some r → Calls.archived (calls.ofRun n) = [r] ∧
    (tellings (calls.ofRun n)).filterMap Event.suite? = [r]

/-- The results of a run under way, as its lead collects them. -/
theorem Underway.collected (hu : Underway s calls n request scenarios) :
    ∃ crew, s.world.crew? n = some crew ∧
      (∀ place d, (place, some (.ok d)) ∈ crew.reports →
        request.deviceIds[place]? = some d.deviceId) ∧
      ∀ r, s.result? n = some r →
        r.deviceResults.map DeviceResult.deviceId = okayedIds request.deviceIds crew.outcomes ∧
        ∀ place d, (place, some (.ok d)) ∈ crew.reports → d ∈ r.deviceResults := by
  obtain ⟨-, runId, suiteId, suiteName, startedAt, hobserved⟩ := hu.observed
  obtain ⟨b, ⟨hof, hsound, haccount⟩, -⟩ := hobserved _ (accounting_joined _ n scenarios)
  refine ⟨b.crew, hof.2.1, fun place d hd => (haccount.reports place d hd).1, fun r hr => ?_⟩
  have hresult : b.crew.result = some r := (result?_of_books hof).symm.trans hr
  obtain ⟨hcomplete, hdevices, -⟩ := haccount.result r hresult
  rw [hdevices]
  exact ⟨haccount.okayed_ids hsound hcomplete, fun place d hd => hsound.mem_okayed hd⟩

/-- The events of a run under way agree with its results, and with time it has one. -/
theorem events_agree (hu : Underway s calls n request scenarios)
    (hnodup : request.deviceIds.Nodup) (hplan : s.plan.Furnished) :
    (∃ state crew, s.Agrees calls n request state crew) ∧
      ∃ more r, History s more (s.wait n) ∧ (s.wait n).result? n = some r := by
  obtain ⟨more, r, hhistory, hr⟩ := hu.ends hplan
  refine ⟨?_, more, r, hhistory, hr⟩
  obtain ⟨run, b, rfl, hof, hsound, hchronicled, hopening⟩ := hu.chronicled
  obtain ⟨crew, hcrew, hids, hcollected⟩ := hu.collected
  obtain rfl : crew = b.crew := Option.some.inj (hcrew.symm.trans hof.2.1)
  have hcalls : b.calls = calls.ofRun n := hof.2.2.1
  have hpart : ∀ place id d, run.request.deviceIds[place]? = some id →
      (place, some (.ok d)) ∈ b.crew.reports →
      TourEvents b.state.runId id d (Event.about id (tellings (calls.ofRun n))) := by
    intro place id d hid hd
    rw [← hcalls, hchronicled.about hnodup hid, RunState.runId_of_title hsound.title]
    exact (hchronicled.told place id _ hid hd).2.1
  refine ⟨b.state, b.crew, hof.1, hof.2.1, ?_, ?_, ?_⟩
  · intro place id d hid hd
    exact ⟨hpart place id d hid hd, (hpart place id d hid hd).slots⟩
  · intro r hr
    obtain ⟨hdevices, hmem⟩ := hcollected r hr
    refine ⟨hdevices, fun place id d hid hd => ⟨(hpart place id d hid hd).devices, ?_⟩⟩
    have hnames : (r.deviceResults.map DeviceResult.deviceId).Nodup :=
      hdevices ▸ hnodup.sublist (okayedIds_sublist _ _)
    obtain rfl : d.deviceId = id := Option.some.inj ((hids place d hd).symm.trans hid)
    exact filter_key_eq hnames (hmem place d hd)
  · intro r hr
    have hresult : b.crew.result = some r := (result?_of_books hof).symm.trans hr
    obtain ⟨-, joined, hled⟩ := hchronicled.result r hresult
    obtain ⟨now, middle, htold, hmiddle⟩ := hchronicled.closing hled hopening
    rw [← hcalls]
    refine ⟨hchronicled.archived.trans hled.archived, ?_⟩
    have hnone : middle.filterMap Event.suite? = [] :=
      List.filterMap_eq_nil_iff.2 fun e he => Event.suite?_of_isTerminal (hmiddle e he)
    have hlast : (Event.ending run.runId joined.stopped r).suite? = some r := by
      cases joined.stopped <;> rfl
    have hfirst : (run.opening now).suite? = none := rfl
    simp [htold, hfirst, hnone, hlast]

/-- The events of the sample agree with its result. -/
theorem events_agree_sample :
    let start := Sample.launched Sample.described (Sample.request ["d", "e"])
    let s := start.takeTurns [0, 1, 2, 0]
    (s.result? 0).isSome = true ∧ ∃ state crew, s.Agrees (start.callsOfTurns [0, 1, 2, 0]) 0
      (Sample.request ["d", "e"]) state crew := by
  have able : (Sample.launched Sample.described
      (Sample.request ["d", "e"])).areAble [0, 1, 2, 0] = true := by decide +kernel
  have hu := Sample.underway (Sample.check_request _) able
  have hplan : (Sample.plan Sample.described).Furnished := fun make hmake => by cases hmake
  exact ⟨by decide +kernel, (events_agree hu (by decide) hplan).1⟩

end Session

end DeviceSuite
