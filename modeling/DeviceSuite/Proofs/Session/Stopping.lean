import DeviceSuite.Proofs.Session.Names
import DeviceSuite.Proofs.Session.Narrative
import DeviceSuite.Proofs.Task.Brisk

/-!
# Stopping a run

A stop is accepted for as long as its run is listed. One that comes before the lead has decided how
the run ends is heeded. But a run stays listed while its result is being kept, and then it is too
late: the stop is accepted all the same, and nothing comes of it. Nowhere else is a run that is over
listed, so this is the only time at which a stop is accepted in vain.
-/

namespace DeviceSuite

open Calls

/-! ## Where a lead stands -/

namespace RunTask

/-- To collect the results is brisk. -/
theorem brisk_collect (entries : List (String × Option TourResult)) : (collect entries).Brisk := by
  induction entries using collect.induct with
  | case1 => trivial
  | case2 id result rest ih =>
    rw [collect]
    exact ih.bind fun _ => trivial
  | case3 id outcome rest houtcome ih =>
    rw [collect]
    · exact (Task.brisk_ask _).bind fun _ => ih
    · exact houtcome

/-- A lead neither pauses nor gives way. -/
theorem brisk_lead (run : RunState) : (lead run).Brisk := by
  rw [lead]
  refine (Task.brisk_ask _).bind fun _ => Task.Brisk.bind (fun ms => trivial) fun began => ?_
  refine (Task.brisk_ask _).bind fun _ => (Task.brisk_ask _).bind fun reports => ?_
  refine (brisk_collect _).bind fun devices => Task.brisk_isStopped.bind fun stopped => ?_
  refine Task.brisk_now.bind fun ended => (Task.brisk_ask _).bind fun _ => ?_
  exact (Task.brisk_ask _).bind fun _ => (Task.brisk_ask _).bind fun _ =>
    (Task.brisk_ask _).bind fun _ => trivial

end RunTask

/-- The only call of a lead that takes time keeps the result. -/
theorem RunCall.OfLead.archive_of_lasts {c : RunCall} (h : c.OfLead) (hlasts : c.pace.lasts = true) :
    ∃ r, c = .archive r := by
  cases c with
  | archive r => exact ⟨r, rfl⟩
  | save context artifact => cases h.1.2
  | device c => cases h.1.2
  | startVideo context => cases h.1.2
  | stopVideo context => cases h.1.2
  | _ => cases hlasts

namespace Session

variable {σ : Type} {s s' : Session σ} {calls more : Calls} {n : Nat} {request : Request}
  {scenarios : List Graph} {run : RunState}

/-- Where the lead of a run stands: at its beginning, or at a call. -/
def LedFrom (s : Session σ) (calls : Calls) (n : Nat) (run : RunState) : Prop :=
  ∃ strand, (.lead n, strand) ∈ s.pool.strands ∧
    (strand = .ready (do return .lead (← RunTask.lead run)) ∧ calls.ofTask (.lead n) = [] ∨
      strand.AtCall (.lead n) (fun c => c.pace.waits = true) calls)

/-- A turn of another task leaves the lead where it stands. -/
theorem LedFrom.takeTurn_of_ne (h : s.LedFrom calls n run) {i : Nat} {l : Role}
    {strand : Strand RunCall.Reply RoleResult} (able : s.pool.isAble s.host i = true)
    (hi : s.pool.strands[i]? = some (l, strand)) (hl : l ≠ .lead n) :
    (s.takeTurn i).LedFrom (calls ++ s.callsOfTurn i) n run := by
  obtain ⟨strand', hmem, hwhere⟩ := h
  obtain ⟨l', strand'', hi', -, -, hstrands, -⟩ := takeTurn_spec able
  obtain ⟨rfl, rfl⟩ := Prod.mk.inj (Option.some.inj (hi.symm.trans hi'))
  have hcalls : ((calls ++ s.callsOfTurn i).filter fun e => e.label = .lead n) =
      calls.filter fun e => e.label = .lead n := by
    rw [List.filter_append, List.append_right_eq_self, List.filter_eq_nil_iff]
    intro e he
    simpa [label_of_mem_callsOfTurn hi able e he] using hl
  refine ⟨strand', ?_, ?_⟩
  · obtain ⟨j, hj⟩ := List.getElem?_of_mem hmem
    rw [hstrands, List.mem_iff_getElem?]
    refine ⟨j, ?_⟩
    rw [List.getElem?_set_ne, hj]
    rintro rfl
    exact hl (Prod.mk.inj (Option.some.inj (hi.symm.trans hj))).1
  · exact hwhere.imp (fun hready => ⟨hready.1, hcalls.trans hready.2⟩) fun hcall => hcall.congr hcalls

/-- The lead still stands at its beginning or at a call when a strand has taken its turn. -/
theorem LedFrom.takeTurn (h : s.LedFrom calls n run) (hn : s.Numbered) {i : Nat}
    (able : s.pool.isAble s.host i = true) :
    (s.takeTurn i).LedFrom (calls ++ s.callsOfTurn i) n run := by
  obtain ⟨l, strand, hi, -, -, hstrands, hcalls⟩ := takeTurn_spec able
  by_cases hl : l = .lead n
  · subst hl
    obtain ⟨strand', hmem, hwhere⟩ := h
    obtain rfl : strand' = strand := hn.strand_inj hmem (List.mem_of_getElem? hi)
    have hlt := (List.getElem?_eq_some_iff.1 hi).1
    have hwaits : ∀ (w : World σ) c, s.host.admits (s.host.announce w (.lead n) c) (.lead n) c =
        false → c.pace.waits = true := by
      intro w c hadm
      cases c <;> first | rfl | cases hadm
    refine ⟨(s.host.resume (.lead n) strand' s.world).2, ?_, .inr ?_⟩
    · rw [hstrands]
      exact List.mem_iff_getElem?.2 ⟨i, by simp [hlt]⟩
    rw [hcalls]
    rcases hwhere with ⟨rfl, -⟩ | hcall
    · have hbrisk := (RunTask.brisk_lead run).bind fun r => Task.brisk_pure (RoleResult.lead r)
      exact Host.atCall_begin hwaits hbrisk calls s.world
    · exact Host.atCall_resume hwaits hcall s.world
  · exact h.takeTurn_of_ne able hi hl

/-- The lead still stands at its beginning or at a call, whatever happens next. -/
theorem LedFrom.next (h : s.LedFrom calls n run) (hn : s.Numbered) (hnext : Next s more s') :
    s'.LedFrom (calls ++ more) n run := by
  cases hnext with
  | turn able => exact h.takeTurn hn able
  | launch suiteId suiteName accepted =>
    obtain ⟨strand, hmem, hwhere⟩ := h
    rw [List.append_nil]
    refine ⟨strand, ?_, hwhere⟩
    rw [strands_launch]
    exact List.mem_append_left _ hmem
  | _ =>
    rw [List.append_nil]
    exact h

/-- The lead of a run that is launched stands at its beginning. -/
theorem ledFrom_launch (s : Session σ) (suiteId suiteName : String) :
    (s.launch suiteId suiteName request scenarios).1.LedFrom [] s.world.registry.runs.length
      (s.newRun suiteId suiteName request) := by
  refine ⟨_, ?_, .inl ⟨rfl, rfl⟩⟩
  rw [strands_launch]
  exact List.mem_append_right _ (s.lead_mem_newStrands _ _)

/-- The result of a run is being kept. -/
def Keeping (s : Session σ) (n : Nat) (r : SuiteResult) : Prop :=
  ∃ due next, (.lead n, .calling due (.archive r) next) ∈ s.pool.strands

/-- A run under way with the tenure that its tasks keep, and its lead where it stands. -/
theorem Underway.tenured (hu : Underway s calls n request scenarios) :
    ∃ (run : RunState) (b : Books), (tenure run n).Observed s calls b ∧ s.LedFrom calls n run := by
  obtain ⟨runId, suiteId, suiteName, startedAt, ⟨-, hobserved⟩, hled⟩ := hu.remains
    (P := fun run s calls => s.Watched calls n scenarios run ∧ s.LedFrom calls n run)
    (fun {s} suiteId suiteName ho hn => hn ▸
      ⟨ho.watched_launch suiteId suiteName, s.ledFrom_launch suiteId suiteName⟩)
    (fun h hnext => ⟨h.1.next hnext, h.2.next h.1.1 hnext⟩)
  obtain ⟨b, hb⟩ := hobserved (tenure _ n) (tenure_joined rfl n scenarios)
  exact ⟨_, b, hb, hled⟩

/-- A result that is being kept is the last that its lead has given away. -/
theorem LedFrom.keeping? (h : s.LedFrom calls n run) (hn : s.Numbered) {r : SuiteResult}
    (hr : s.Keeping n r) : Calls.keeping? (calls.ofTask (.lead n)) = some r := by
  obtain ⟨strand, hmem, hwhere⟩ := h
  obtain ⟨due, next, hkeeping⟩ := hr
  obtain rfl := hn.strand_inj hmem hkeeping
  rcases hwhere with ⟨hready, -⟩ | ⟨hlast, -⟩
  · cases hready
  · obtain ⟨e, he, hcall⟩ := Option.map_eq_some_iff.1 hlast
    have he : (calls.ofTask (.lead n)).getLast? = some e := he
    rw [Calls.keeping?, he, Option.bind_some, hcall]
    rfl

/-- A lead that has ended has brought a result. -/
theorem Underway.exists_result (hu : Underway s calls n request scenarios)
    {ending : Option RoleResult} (hmem : (.lead n, .ended ending) ∈ s.pool.strands) :
    ∃ r, s.result? n = some r := by
  obtain ⟨-, crew, hmanned⟩ := hu.manned
  obtain ⟨-, _, _, _, _, hobserved⟩ := hu.observed
  obtain ⟨b, -, -, habides⟩ := hobserved _ (chronicle_joined _ n scenarios)
  obtain ⟨v, hends⟩ := habides _ hmem
  obtain ⟨-, r, -, rfl, -⟩ := hends rfl
  have hresult : crew.result = some r := (hmanned.has _ hmem rfl).ended _ rfl
  exact ⟨r, by rw [result?, hmanned.found, Option.bind_some, hresult]⟩

/-- A run that is over has its result kept at the moment, or has ended. -/
theorem Underway.keeping_or_ended (hu : Underway s calls n request scenarios) {state : RunState}
    (hstate : s.world.registry.run? n = some state) (hterminal : state.status.isTerminal = true) :
    (∃ r, s.Keeping n r) ∨ ∃ r, s.result? n = some r := by
  obtain ⟨run, b, ⟨⟨hof, -, htenured⟩, -, habides⟩, strand, hmem, hwhere⟩ := hu.tenured
  obtain rfl : state = b.state := Option.some.inj (hstate.symm.trans hof.1)
  have hown : b.own (.lead n) = calls.ofTask (.lead n) := hof.own rfl
  have hjoined : joined (calls.ofTask (.lead n)) = true := hown ▸ htenured.decided hterminal
  obtain ⟨-, crew, hmanned⟩ := hu.manned
  have hhas := hmanned.has _ hmem rfl
  have hstrand : strand.Abides ((tenure run n).terms (.lead n))
      (((tenure run n).company (σ := σ)).ends (.lead n)) b := by
    have hlead : (Role.lead n).run = n := rfl
    have h : strand.Abides (((tenure run n).company (σ := σ)).terms (.lead n)) _ b := habides _ hmem
    rw [Accord.company_terms hlead] at h
    exact h
  rcases hwhere with ⟨-, hnone⟩ | hcall
  · rw [hnone] at hjoined
    cases hjoined
  · cases strand with
    | ready task => exact hcall.elim
    | resting due next => exact hcall.elim
    | waiting c next =>
      -- A lead waits for the tours only, and then nothing is decided yet.
      obtain rfl : c = .tours := hhas.makes.1.2 hcall.1
      have hmay := (hstrand b (Terms.drifts_refl _ b)).1.2.2.2.2.2 rfl
      rw [hown, hjoined] at hmay
      cases hmay
    | calling due c next =>
      obtain ⟨r, rfl⟩ := hhas.makes.1.archive_of_lasts hstrand.1
      exact .inl ⟨r, due, next, hmem⟩
    | ended ending => exact .inr (hu.exists_result hmem)

/-- What has been told at the end of a run. -/
theorem Underway.ending (hu : Underway s calls n request scenarios) {state : RunState}
    (hstate : s.world.registry.run? n = some state) {r : SuiteResult} (hr : s.result? n = some r)
    (hstopped : r.status = .stopped) :
    (tellings (calls.ofRun n)).filter Event.isTerminal = [.stopped state.runId r] := by
  obtain ⟨run, b, -, hof, hsound, hchronicled, hopening⟩ := hu.chronicled
  obtain rfl : state = b.state := Option.some.inj (hstate.symm.trans hof.1)
  have hresult : b.crew.result = some r := (result?_of_books hof).symm.trans hr
  obtain ⟨-, joined, hled⟩ := hchronicled.result r hresult
  obtain ⟨now, middle, htold, hmiddle⟩ := hchronicled.closing hled hopening
  have hjoined : joined.stopped = true := by
    have hstatus := hled.status
    cases hj : joined.stopped with
    | true => rfl
    | false =>
      rw [hstopped, hj] at hstatus
      cases hstatus
  have hnone : middle.filter Event.isTerminal = [] :=
    List.filter_eq_nil_iff.2 fun e he => by simp [hmiddle e he]
  have hcalls : b.calls = calls.ofRun n := hof.2.2.1
  have hfirst : (run.opening now).isTerminal = false := rfl
  have hlast : (Event.stopped run.runId r).isTerminal = true := rfl
  rw [← hcalls, htold, RunState.runId_of_title hsound.title]
  simp [hfirst, hnone, Event.ending, hjoined, hlast]

/-- What a stop of a run comes to, in the state that it finds. -/
structure Stoppable (s : Session σ) (calls : Calls) (n : Nat) (state : RunState) : Prop where
  found : s.world.registry.run? n = some state
  /-- A run that is over is listed only while its result is being kept. -/
  listed : (∃ entry ∈ s.world.registry.active, entry.2 = n) → state.status.isTerminal = true →
    ∃ r, s.Keeping n r
  /-- A run whose result is being kept is over, and keeps its status whatever happens. -/
  kept : ∀ r, s.Keeping n r → state.status = r.status ∧ r.status.isTerminal = true ∧
    ∀ more s' r', History s more s' → s'.result? n = some r' → r'.status = r.status
  /-- A stop that finds a run before it is over is accepted, and the run ends with it. -/
  accepted : ∀ runId, s.world.registry.find? runId = some n → state.status.isTerminal = false →
    (s.stop runId).2 = true ∧
      (∀ more s' r, History (s.stop runId).1 more s' → s'.result? n = some r →
        r.status = .stopped ∧ (tellings ((calls ++ more).ofRun n)).filter Event.isTerminal =
          [.stopped state.runId r]) ∧
      (s.plan.Furnished → ∃ more r, History (s.stop runId).1 more ((s.stop runId).1.wait n) ∧
        ((s.stop runId).1.wait n).result? n = some r)
  /-- No stop finds a run that is over once its result has been kept. -/
  refused : state.status.isTerminal = true → (∀ r, ¬ s.Keeping n r) →
    (∀ runId, s.world.registry.find? runId ≠ some n) ∧
      (Function.Injective s.plan.runId → (s.stop state.runId).2 = false)

/-- A run that is found under an identifier is listed. -/
theorem mem_active_of_find? {runId : String} (h : s.world.registry.find? runId = some n) :
    (runId, n) ∈ s.world.registry.active := by
  obtain ⟨before, after, hsplit, -⟩ := List.lookup_eq_some_iff.1 h
  exact hsplit ▸ List.mem_append_right _ List.mem_cons_self

/-- A stop that finds a run raises its flag. -/
theorem run?_stop {runId : String} (hfind : s.world.registry.find? runId = some n)
    {state : RunState} (hstate : s.world.registry.run? n = some state) :
    (s.stop runId).1.world.registry.run? n = some state.requestStop := by
  change (s.world.registry.stop runId).run? n = _
  rw [Registry.stop, hfind]
  dsimp only
  rw [Registry.update_run?, if_pos rfl, hstate]
  rfl

namespace Underway

variable {state : RunState} {r : SuiteResult}

/-- The status of a result is the one that its run has. -/
theorem status_of_result (hu : Underway s calls n request scenarios)
    (hstate : s.world.registry.run? n = some state) (hr : s.result? n = some r) :
    state.status = r.status ∧ r.status.isTerminal = true := by
  obtain ⟨run, b, ⟨⟨hof, -, htenured⟩, -⟩, -⟩ := hu.tenured
  obtain rfl : state = b.state := Option.some.inj (hstate.symm.trans hof.1)
  obtain ⟨hstatus, hterminal, -⟩ := htenured.result r ((result?_of_books hof).symm.trans hr)
  exact ⟨hstatus, hterminal⟩

/-- A run that has ended is not listed. -/
theorem unlisted (hu : Underway s calls n request scenarios) (hr : s.result? n = some r) :
    ∀ entry ∈ s.world.registry.active, entry.2 ≠ n := by
  obtain ⟨run, b, ⟨⟨hof, -, htenured⟩, -⟩, -⟩ := hu.tenured
  intro entry hentry hn
  obtain ⟨-, -, hlisted⟩ := htenured.result r ((result?_of_books hof).symm.trans hr)
  have hmem := hof.2.2.2 entry hentry hn
  rw [hlisted] at hmem
  exact absurd hmem List.not_mem_nil

/-- Whatever happens, the state of a run goes on as its tenure lets it. -/
theorem decides (hu : Underway s calls n request scenarios)
    (hstate : s.world.registry.run? n = some state) (hhistory : History s more s') :
    ∃ (state' : RunState) (b b' : Books), s'.world.registry.run? n = some state' ∧
      state'.runId = state.runId ∧ b.state = state ∧ b'.state = state' ∧ b.Decides b' := by
  obtain ⟨run, b, hb, -⟩ := hu.tenured
  obtain rfl : state = b.state := Option.some.inj (hstate.symm.trans hb.1.1.1)
  obtain ⟨-, b', hb', hdecides⟩ := hb.history hu.manned.1.numbered hhistory
  refine ⟨b'.state, b, b', hb'.1.1.1, ?_, rfl, rfl, hdecides⟩
  rw [RunState.runId_of_title hb'.1.2.1.title, RunState.runId_of_title hb.1.2.1.title]

/-- A run whose result is being kept is over with its status. -/
theorem status_of_keeping (hu : Underway s calls n request scenarios)
    (hstate : s.world.registry.run? n = some state) (hr : s.Keeping n r) :
    state.status = r.status ∧ r.status.isTerminal = true := by
  obtain ⟨run, b, ⟨⟨hof, -, htenured⟩, -⟩, hled⟩ := hu.tenured
  obtain rfl : state = b.state := Option.some.inj (hstate.symm.trans hof.1)
  have hown : b.own (.lead n) = calls.ofTask (.lead n) := hof.own rfl
  exact htenured.kept r (hown ▸ hled.keeping? hu.manned.1.numbered hr)

/-- A run that is over keeps its status whatever happens. -/
theorem status_stays (hu : Underway s calls n request scenarios)
    (hstate : s.world.registry.run? n = some state) (hterminal : state.status.isTerminal = true)
    (hhistory : History s more s') (hr : s'.result? n = some r) : r.status = state.status := by
  obtain ⟨_, b, b', hstate', -, rfl, rfl, hdecides⟩ := hu.decides hstate hhistory
  have hr' := ((hu.history hhistory).status_of_result hstate' hr).1
  exact hr'.symm.trans (hdecides.final hterminal)

/-- A run that a stop finds before it is over ends with the stop. -/
theorem stopped_of_stop (hu : Underway s calls n request scenarios)
    (hstate : s.world.registry.run? n = some state) {runId : String}
    (hfind : s.world.registry.find? runId = some n) (hopen : state.status.isTerminal = false)
    (hhistory : History (s.stop runId).1 more s') (hr : s'.result? n = some r) :
    r.status = .stopped ∧ (tellings ((calls ++ more).ofRun n)).filter Event.isTerminal =
      [.stopped state.runId r] := by
  have hu₁ : Underway (s.stop runId).1 calls n request scenarios := by
    simpa using hu.history (Next.stop (s := s) runId).history
  obtain ⟨_, b, b', hstate', hid, hraised, rfl, hdecides⟩ :=
    hu₁.decides (run?_stop hfind hstate) hhistory
  have hu' := hu₁.history hhistory
  have hstopped : r.status = .stopped := by
    have hcompleted : b.state.status ≠ .completed := by
      rw [hraised]
      rintro hcompleted
      rw [show state.status = .completed from hcompleted] at hopen
      cases hopen
    obtain ⟨hstatus, hterminal⟩ := hu'.status_of_result hstate' hr
    obtain ⟨-, hnot⟩ := hdecides.heeded (by rw [hraised]; rfl) hcompleted
    rw [hstatus] at hnot
    cases hr' : r.status <;> simp_all [RunStatus.isTerminal]
  have hending := hu'.ending hstate' hr hstopped
  rw [hid] at hending
  exact ⟨hstopped, hending⟩

end Underway

/-- What a stop of a run under way comes to depends on whether the run is over, and on whether its
result is being kept then. -/
theorem stop_settled (hu : Underway s calls n request scenarios) :
    ∃ state, s.Stoppable calls n state := by
  obtain ⟨run, b, hb, -⟩ := hu.tenured
  have hstate : s.world.registry.run? n = some b.state := hb.1.1.1
  have ho : Opened s := hu.manned.1
  refine ⟨b.state, hstate, ?_, ?_, ?_, ?_⟩
  · rintro ⟨entry, hentry, hn⟩ hterminal
    exact (hu.keeping_or_ended hstate hterminal).resolve_right
      fun ⟨_, hended⟩ => hu.unlisted hended entry hentry hn
  · intro r hr
    obtain ⟨hstatus, hterminal⟩ := hu.status_of_keeping hstate hr
    exact ⟨hstatus, hterminal, fun more s' r' hhistory hr' =>
      (hu.status_stays hstate (hstatus ▸ hterminal) hhistory hr').trans hstatus⟩
  · intro runId hfind hopen
    exact ⟨by simp [Session.stop, hfind],
      fun more s' r hhistory hr => hu.stopped_of_stop hstate hfind hopen hhistory hr,
      fun hplan => (hu.history (Next.stop (s := s) runId).history).ends hplan⟩
  · intro hterminal hidle
    obtain ⟨r, hended⟩ :=
      (hu.keeping_or_ended hstate hterminal).resolve_left fun ⟨r, hr⟩ => hidle r hr
    have hnone : ∀ runId, s.world.registry.find? runId ≠ some n := fun runId hfind =>
      hu.unlisted hended _ (mem_active_of_find? hfind) rfl
    refine ⟨hnone, fun hinj => ?_⟩
    rw [ho.runId_of_run? hstate]
    cases hfind : s.world.registry.find? (s.plan.runId n) with
    | none => simp [Session.stop, hfind]
    | some m => exact absurd (ho.find?_runId hinj hfind ▸ hfind) (hnone _)

/-- A run of the sample is stopped while its tours are still to come. -/
theorem stop_settled_sample :
    let s := (Sample.launched Sample.described (Sample.request ["d", "e"])).takeTurns [0, 1]
    s.world.registry.find? "r" = some 0 ∧ ∃ state, state.status.isTerminal = false ∧ s.Stoppable
      ((Sample.launched Sample.described (Sample.request ["d", "e"])).callsOfTurns [0, 1]) 0
      state := by
  have able : (Sample.launched Sample.described
      (Sample.request ["d", "e"])).areAble [0, 1] = true := by decide +kernel
  have hopen : (((Sample.launched Sample.described (Sample.request ["d", "e"])).takeTurns
      [0, 1]).world.registry.run? 0).map (fun state => state.status.isTerminal) = some false := by
    decide +kernel
  obtain ⟨state, h⟩ := stop_settled (Sample.underway (Sample.check_request _) able)
  rw [h.found] at hopen
  exact ⟨by decide +kernel, state, Option.some.inj hopen, h⟩

/-- The session of the sample with an archive that takes time to keep a result. -/
def archiving : Session Unit :=
  let plan := { Sample.plan Sample.described with
    archive := { Archive.empty with delay := fun _ => 1 } }
  { Sample.session Sample.described with
    plan := plan
    pool := .empty { (Sample.session Sample.described).world with archive := plan.archive } }

/-- A stop that comes while the result of a completed run is being kept is accepted, and the run
ends as if there had been none. -/
theorem stop_in_vain :
    let s := (archiving.launch "s" "" (Sample.request ["d", "e"]) [Sample.scenario]).1
    let kept := s.takeTurns [0, 1, 2, 0]
    let due := (kept.stop "r").1.change fun w => { w with now := 1 }
    (∃ calls, kept.Underway calls 0 (Sample.request ["d", "e"]) [Sample.scenario]) ∧
      (∃ more, (kept.stop "r").1.History more (due.takeTurns [0])) ∧
      kept.world.registry.active = [("r", 0)] ∧
      (kept.world.registry.run? 0).map (·.status) = some .completed ∧
      (kept.stop "r").2 = true ∧
      ((due.takeTurns [0]).result? 0).map (·.status) = some .completed := by
  intro s kept due
  have hsetUp : Session.setUp archiving.plan (.given .default) = .ok archiving := rfl
  have hopened : archiving.Opened := .setUp hsetUp
  have hcheck : archiving.check (Sample.request ["d", "e"]) = .ok [Sample.scenario] := rfl
  have able : s.areAble [0, 1, 2, 0] = true := by decide +kernel
  have able' : due.areAble [0] = true := by decide +kernel
  refine ⟨⟨_, (Underway.launch "s" "" hopened hcheck).history (takeTurns_history able)⟩,
    ⟨_, (Next.clock 1).history.trans (takeTurns_history able')⟩, ?_⟩
  decide +kernel

end Session

end DeviceSuite
