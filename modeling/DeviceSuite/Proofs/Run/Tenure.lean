import DeviceSuite.Proofs.Run.Deeds
import DeviceSuite.Proofs.Run.Chronicle
import DeviceSuite.Proofs.Session.Watch

/-!
# The tenure of a run

A run is open until its lead has been told of the tours and decides how it ends. A stop that is
raised by then is heeded, and what has been decided stays: it is the status of the result that is
kept, and the run is taken off the list afterwards.
-/

namespace DeviceSuite

open Calls

/-- Whether a call is the one by which a lead is told of the tours. -/
def RunCall.joins : RunCall → Bool
  | tours => true
  | _ => false

namespace Calls

variable {own : Calls} {e : Begun RunCall Role}

/-- Whether a lead has been told of the tours. -/
def joined (own : Calls) : Bool := own.any fun e => e.call.joins

/-- The result that a lead has given away to be kept, if that was the last it did. -/
def keeping? (own : Calls) : Option SuiteResult := own.getLast?.bind fun e => e.call.archived?

/-- A lead is told of the tours when it asks for them. -/
@[simp] theorem joined_append : joined (own ++ [e]) = (joined own || e.call.joins) := by
  simp [joined]

/-- What a lead gives away to be kept is told by its last call. -/
@[simp] theorem keeping?_append : keeping? (own ++ [e]) = e.call.archived? := by
  simp [keeping?]

end Calls

namespace Books

variable (run : RunState) (n : Nat)

/-- The status of a run is told by what its lead has done. -/
structure Tenured (b : Books) : Prop where
  decided : b.state.status.isTerminal = true → joined (b.own (.lead n)) = true
  kept : ∀ r, keeping? (b.own (.lead n)) = some r →
    b.state.status = r.status ∧ r.status.isTerminal = true
  listed : ∀ id ∈ b.listed, id = run.runId
  result : ∀ r, b.crew.result = some r →
    b.state.status = r.status ∧ r.status.isTerminal = true ∧ b.listed = []

/-- How a lead may set the status of its run: to an end only once, when it has been told of the
tours, and to completion only if no stop is requested. -/
def MaySet (b : Books) (status : RunStatus) : Prop :=
  b.state.status.isTerminal = false ∧
    (status.isTerminal = true → joined (b.own (.lead n)) = true) ∧
    (status = .completed → b.state.stopRequested = false)

/-- What a task may do to the tenure of its run. -/
def MayDecide (l : Role) (b : Books) (c : RunCall) : Prop :=
  match l with
  | .lead _ => b.crew.result = none ∧
    (∀ f, c = .update f → c.KeepsStatus ∨ ∃ status, (f = fun s => s.withStatus status) ∧
      b.MaySet n status) ∧
    (∀ r, c = .archive r → b.state.status = r.status ∧ r.status.isTerminal = true) ∧
    (c = .tours → joined (b.own (.lead n)) = false)
  | .tour _ _ _ => c.KeepsStatus

/-- What a lead that ends with a result has done. -/
def EndsTenure (l : Role) (b : Books) (ending : Option RoleResult) : Prop :=
  match l with
  | .lead _ => ∀ r, RoleResult.lead? ending = some r →
    b.state.status = r.status ∧ r.status.isTerminal = true ∧ b.listed = []
  | .tour _ _ _ => True

/-- A stop that is raised before a run is completed keeps it from being completed, and what has been
decided stays. -/
structure Decides (b b' : Books) : Prop where
  heeded : b.state.stopRequested = true → b.state.status ≠ .completed →
    b'.state.stopRequested = true ∧ b'.state.status ≠ .completed
  final : b.state.status.isTerminal = true → b'.state.status = b.state.status

variable {run n} {b b' b'' : Books} {l : Role} {c : RunCall}

/-- What leaves the status alone undoes no decision. -/
theorem Decides.of_status (hstop : b.state.stopRequested = true → b'.state.stopRequested = true)
    (hstatus : b'.state.status = b.state.status) : b.Decides b' :=
  ⟨fun hb hopen => ⟨hstop hb, hstatus ▸ hopen⟩, fun _ => hstatus⟩

/-- What is decided stays so, however often. -/
theorem Decides.trans (h : b.Decides b') (h' : b'.Decides b'') : b.Decides b'' := by
  constructor
  · intro hb hopen
    obtain ⟨hb', hopen'⟩ := h.heeded hb hopen
    exact h'.heeded hb' hopen'
  · intro hb
    have hstatus := h.final hb
    exact (h'.final (hstatus ▸ hb)).trans hstatus

/-- A call that does not set the status leaves it as it is. -/
theorem status_call (h : c.KeepsStatus) :
    ((b.note l c).answered l c).state.status = b.state.status := by
  cases c with
  | update f => exact h f rfl b.state
  | _ => rfl

/-- A call that changes nothing leaves the status as it is. -/
theorem keepsStatus_of_changes (h : c.changes = false) : c.KeepsStatus := by
  rintro f rfl
  cases h

/-- A call leaves the status as it is, or sets it as a lead may. -/
theorem MayDecide.cases (h : b.MayDecide n l c) : c.KeepsStatus ∨ ∃ m status,
    l = .lead m ∧ (c = .update fun s => s.withStatus status) ∧ b.MaySet n status := by
  cases l with
  | tour m place id => exact .inl h
  | lead m =>
    cases hc : c.changes with
    | false => exact .inl (keepsStatus_of_changes hc)
    | true =>
      cases c with
      | update f =>
        obtain ⟨-, hf, -⟩ := h
        rcases hf f rfl with hkeeps | ⟨status, rfl, hset⟩
        · exact .inl hkeeps
        · exact .inr ⟨m, status, rfl, rfl, hset⟩
      | _ => cases hc

/-- What a task may do undoes no decision. -/
theorem MayDecide.decides (h : b.MayDecide n l c) (hc : c.Steady) :
    b.Decides ((b.note l c).answered l c) := by
  rcases h.cases with hkeeps | ⟨m, status, rfl, rfl, hopen, -, hset⟩
  · exact .of_status (stopRequested_call hc).trans (status_call hkeeps)
  · constructor
    · intro hb _
      refine ⟨(stopRequested_call hc).trans hb, fun hstatus => ?_⟩
      have hstop := hset hstatus
      rw [hb] at hstop
      cases hstop
    · intro hb
      rw [hopen] at hb
      cases hb

/-- The status of a run that begins is told by its lead, which has done nothing. -/
theorem blank_tenured (hrun : run.status.isTerminal = false) : (blank run).Tenured run n where
  decided h := by
    have h : run.status.isTerminal = true := h
    rw [hrun] at h
    cases h
  kept r h := by cases h
  listed id hid := List.mem_singleton.1 hid
  result r hr := by cases hr

/-- The lead of a run after a call. -/
theorem Tenured.lead_call (h : b.Tenured run n) (hm : b.MayDecide n (.lead n) c) :
    ((b.note (.lead n) c).answered (.lead n) c).Tenured run n := by
  constructor
  case decided =>
    intro hterminal
    rw [own_call, joined_append]
    rcases hm.cases with hkeeps | ⟨-, status, -, rfl, -, hjoined, -⟩
    · rw [status_call hkeeps] at hterminal
      rw [h.decided hterminal, Bool.true_or]
    · have hjoined : joined (b.own (.lead n)) = true := hjoined hterminal
      rw [hjoined, Bool.true_or]
  case kept =>
    intro r hr
    rw [own_call, keeping?_append] at hr
    cases c with
    | archive result =>
      obtain rfl : result = r := Option.some.inj hr
      exact hm.2.2.1 result rfl
    | _ => cases hr
  case listed => exact fun id hid => h.listed id (listed_call b _ c hid)
  case result =>
    intro r hr
    rw [crew_call, hm.1] at hr
    cases hr

/-- A run whose status and lead nothing has happened to. -/
theorem Tenured.congr (h : b.Tenured run n) (hstatus : b'.state.status = b.state.status)
    (hown : b'.own (.lead n) = b.own (.lead n)) (hlisted : b'.listed ⊆ b.listed)
    (hresult : b'.crew.result = b.crew.result) : b'.Tenured run n := by
  obtain ⟨hdecided, hkept, hlist, hended⟩ := h
  constructor
  · rw [hstatus, hown]
    exact hdecided
  · rw [hstatus, hown]
    exact hkept
  · exact fun id hid => hlist id (hlisted hid)
  · intro r hr
    obtain ⟨hr, hterminal, hnone⟩ := hended r (hresult ▸ hr)
    exact ⟨hstatus.trans hr, hterminal, List.subset_nil.1 (hnone ▸ hlisted)⟩

/-- The status of a run is still told by its lead when a task makes a call that it may make. -/
theorem Tenured.call (h : b.Tenured run n) (hl : l.run = n) (hm : b.MayDecide n l c) :
    ((b.note l c).answered l c).Tenured run n := by
  cases l with
  | lead m =>
    obtain rfl : m = n := hl
    exact h.lead_call hm
  | tour m place id =>
    refine h.congr (status_call hm) (own_call_of_ne (by rintro ⟨⟩) b c) (listed_call b _ c) ?_
    rw [crew_call]

end Books

open Books

/-- The tasks of a run keep its tenure. -/
def tenure (run : RunState) (n : Nat) : Accord run n where
  keeps b := b.Tenured run n
  minds l b b' := l.place? = none →
    b'.crew.result = b.crew.result ∧ b'.state.status = b.state.status
  may l b c := b.MayDecide n l c
  ends := EndsTenure
  grows := Decides
  minds_refl _ _ _ := ⟨rfl, rfl⟩
  minds_trans h h' hl := ⟨(h' hl).1.trans (h hl).1, (h' hl).2.trans (h hl).2⟩
  grows_refl b := .of_status id rfl
  grows_trans := .trans
  raise b := ⟨fun h => h.congr rfl rfl (List.Subset.refl _) rfl, .of_status (fun _ => rfl) rfl,
    fun _ _ => ⟨rfl, rfl⟩⟩
  start b := ⟨fun h => h.congr rfl rfl (List.Subset.refl _) rfl, .of_status id rfl,
    fun _ _ => ⟨rfl, rfl⟩⟩
  call {l b c} hl _ hk _ hc hm _ := by
    refine ⟨hk.call hl hm, hm.decides hc, fun other hne hrun _ hother => ⟨by rw [crew_call], ?_⟩⟩
    obtain ⟨m, place, id, rfl⟩ := tour_of_ne hl hrun hne hother
    exact status_call hm
  finish {l b r} hl _ hk _ he := by
    refine ⟨?_, .of_status id rfl, fun other hne hrun _ hother => ⟨?_, rfl⟩⟩
    · cases l with
      | lead m => exact ⟨hk.decided, hk.kept, hk.listed, he⟩
      | tour m place id => exact hk.congr rfl rfl (List.Subset.refl _) rfl
    · obtain ⟨m, place, id, rfl⟩ := tour_of_ne hl hrun hne hother
      rfl

/-! ## The lead -/

/-- A lead in office: its run has no result yet. -/
structure Presides (run : RunState) (n : Nat) (told : Bool) (b : Books) : Prop where
  sound : b.Sound run
  tenured : b.Tenured run n
  result : b.crew.result = none
  joined : joined (b.own (.lead n)) = told

namespace Presides

variable {run : RunState} {n : Nat} {told : Bool} {b b' : Books} {c : RunCall}

/-- A lead stays in office while the others go on, and nobody else sets the status. -/
theorem drift (h : Presides run n told b) (hd : ((tenure run n).terms (.lead n)).drifts b b') :
    Presides run n told b' ∧ b'.state.status = b.state.status := by
  obtain ⟨hresult, hstatus⟩ := hd.2.2 trivial rfl
  refine ⟨⟨hd.1.sound h.sound, hd.2.1 h.sound h.tenured, hresult.trans h.result, ?_⟩, hstatus⟩
  rw [hd.1.own trivial]
  exact h.joined

/-- A lead that makes a call which it may make stays in office. -/
theorem call (h : Presides run n told b) (hc : c.Steady) (hm : b.MayDecide n (.lead n) c) :
    Presides run n (told || c.joins) ((b.note (.lead n) c).answered (.lead n) c) := by
  refine ⟨h.sound.call hc, h.tenured.call rfl hm, ?_, ?_⟩
  · rw [crew_call]
    exact h.result
  · rw [own_call, joined_append, h.joined]

/-- What a lead may decide, it may do. -/
theorem mayDo (hc : c.Steady) (hm : b.MayDecide n (.lead n) c) :
    ((tenure run n).terms (.lead n)).may b c := ⟨trivial, hc, hm⟩

/-- A lead may make any call that has nothing to do with the tenure. -/
theorem may (h : Presides run n told b) (hc : c.KeepsStatus) (harchive : c.archived? = none)
    (hjoins : c.joins = false) : b.MayDecide n (.lead n) c := by
  refine ⟨h.result, fun _ _ => .inl hc, ?_, ?_⟩
  · rintro r rfl
    cases harchive
  · rintro rfl
    cases hjoins

/-- A call that is answered at once leaves the lead in office. -/
theorem abides_instant (h : Presides run n told b) (hp : c.pace = .instant) (hc : c.Steady)
    (hjoins : c.joins = false) (hm : b.MayDecide n (.lead n) c) :
    (Task.ask c).Abides ((tenure run n).terms (.lead n))
      (Task.Upon (fun _ => False) fun _ b' => Presides run n told b' ∧
        b' = (b.note (.lead n) c).answered (.lead n) c) b := by
  apply Accord.abides_instant hp (mayDo hc hm)
  intro reply hreply
  obtain ⟨a, rfl⟩ := Option.isSome_iff_exists.1 (hreply.isSome hp)
  have hcall := h.call hc hm
  rw [hjoins, Bool.or_false] at hcall
  exact ⟨hcall, rfl⟩

/-- The lead tells an event. -/
theorem abides_emit (h : Presides run n told b) (e : Event) :
    (RunTask.emit e).Abides ((tenure run n).terms (.lead n))
      (Task.Upon (fun _ => False) fun _ b' => Presides run n told b' ∧
        b'.state.status = b.state.status ∧ b'.listed = b.listed) b := by
  have hm := h.may (c := .emit e) (keepsStatus_of_changes rfl) rfl rfl
  apply (h.abides_instant rfl (RunCall.bookkeeping_emit e).1 rfl hm).upon fun _ h => h
  rintro _ _ ⟨h', rfl⟩
  exact ⟨h', rfl, rfl⟩

/-- The lead counts the slots of a device as done. -/
theorem abides_writeOff (h : Presides run n told b) (id : String) :
    (RunTask.update fun s => s.writeOff id).Abides ((tenure run n).terms (.lead n))
      (Task.Upon (fun _ => False) fun _ b' => Presides run n told b' ∧
        b'.state.status = b.state.status) b := by
  have hkeeps : (RunCall.update fun s => s.writeOff id).KeepsStatus := by
    rintro f ⟨⟩ s
    rfl
  have hm := h.may hkeeps rfl rfl
  apply (h.abides_instant rfl (RunCall.steady_writeOff id) rfl hm).upon fun _ h => h
  rintro _ _ ⟨h', rfl⟩
  exact ⟨h', status_call hkeeps⟩

/-- The lead sets the status of its run. -/
theorem abides_set (h : Presides run n told b) {status : RunStatus}
    (hset : b.MaySet n status) :
    (RunTask.update fun s => s.withStatus status).Abides ((tenure run n).terms (.lead n))
      (Task.Upon (fun _ => False) fun _ b' => Presides run n told b' ∧
        b'.state.status = status) b := by
  have hm : b.MayDecide n (.lead n) (.update fun s => s.withStatus status) := by
    refine ⟨h.result, ?_, (fun r hr => by cases hr), (fun hr => by cases hr)⟩
    rintro f ⟨⟩
    exact .inr ⟨status, rfl, hset⟩
  apply (h.abides_instant rfl (RunCall.steady_withStatus status) rfl hm).upon fun _ h => h
  rintro _ _ ⟨h', rfl⟩
  exact ⟨h', rfl⟩

/-- While a result is being kept, its status is that of the run. -/
theorem abides_archive (h : Presides run n told b) {r : SuiteResult}
    (hr : b.state.status = r.status ∧ r.status.isTerminal = true) :
    (Task.ask (RunCall.archive r)).Abides ((tenure run n).terms (.lead n))
      (Task.Upon (fun _ => False) fun _ b' => Presides run n told b' ∧
        b'.state.status = r.status) b := by
  have hm : b.MayDecide n (.lead n) (.archive r) := by
    refine ⟨h.result, (fun f hf => by cases hf), ?_, (fun hf => by cases hf)⟩
    rintro r' ⟨⟩
    exact hr
  have hc : (RunCall.archive r).Steady := RunCall.steady_of_changes rfl
  apply Task.abides_ask.2
  intro b₁ hw
  obtain rfl : b₁ = b := hw
  apply Accord.admits (mayDo hc hm)
  intro b₂ reply hd _ _ hreply
  obtain ⟨a, rfl⟩ := Option.isSome_iff_exists.1 hreply
  have hcall := h.call hc hm
  rw [show (told || (RunCall.archive r).joins) = told from Bool.or_false told] at hcall
  obtain ⟨h', hstatus⟩ := hcall.drift hd
  exact ⟨h', hstatus.trans hr.1⟩

/-- A run that has been retired is not listed. -/
theorem abides_retire (h : Presides run n told b) :
    (Task.ask RunCall.retire).Abides ((tenure run n).terms (.lead n))
      (Task.Upon (fun _ => False) fun _ b' => Presides run n told b' ∧
        b'.state.status = b.state.status ∧ b'.listed = []) b := by
  have hm : b.MayDecide n (.lead n) .retire := h.may (keepsStatus_of_changes rfl) rfl rfl
  apply (h.abides_instant rfl (RunCall.steady_of_changes rfl) rfl hm).upon fun _ h => h
  rintro _ _ ⟨h', rfl⟩
  refine ⟨h', rfl, List.filter_eq_nil_iff.2 fun id hid => ?_⟩
  have hrun : b.state.title.runId = run.title.runId := congrArg RunState.runId h.sound.title
  have hid : id = b.state.runId := (h.tenured.listed id hid).trans hrun.symm
  simpa [Books.note] using hid

/-- The lead waits for the tours. -/
theorem abides_tours (h : Presides run n false b) :
    (Task.ask RunCall.tours).Abides ((tenure run n).terms (.lead n))
      (Task.Upon (fun _ => False) fun _ b' => Presides run n true b' ∧
        b'.state.status = b.state.status) b := by
  have hsteady : RunCall.tours.Steady := RunCall.steady_of_changes rfl
  apply Accord.abides_awaited rfl
  intro b' hd
  obtain ⟨h', hstatus⟩ := h.drift hd
  have hm : b'.MayDecide n (.lead n) .tours :=
    ⟨h'.result, (fun _ h => by cases h), (fun _ h => by cases h), fun _ => h'.joined⟩
  refine ⟨mayDo hsteady hm, ?_⟩
  rintro _ - rfl
  exact ⟨h'.call hsteady hm, hstatus⟩

/-- While the lead collects what the tours ended with, nothing is decided. -/
theorem abides_collect (h : Presides run n told b)
    (entries : List (String × Option TourResult)) :
    (RunTask.collect entries).Abides ((tenure run n).terms (.lead n))
      (Task.Upon (fun _ => False) fun _ b' => Presides run n told b' ∧
        b'.state.status = b.state.status) b := by
  induction entries using RunTask.collect.induct generalizing b with
  | case1 => exact ⟨h, rfl⟩
  | case2 id result rest ih =>
    rw [RunTask.collect]
    exact (ih h).bind fun devices b' hb' => hb'
  | case3 id outcome rest houtcome ih =>
    rw [RunTask.collect]
    · apply (h.abides_writeOff id).bind
      rintro _ b₁ ⟨h₁, hstatus⟩
      apply (ih h₁).upon fun _ h => h
      rintro devices b' ⟨h', hstatus'⟩
      exact ⟨h', hstatus'.trans hstatus⟩
    · exact houtcome

/-- The lead decides how its run ends, has the result kept, and retires the run. -/
theorem abides_lead (h : Presides run n false b) :
    (RunTask.lead run).Abides ((tenure run n).terms (.lead n))
      (Task.Upon (fun _ => False) fun r b =>
        b.state.status = r.status ∧ r.status.isTerminal = true ∧ b.listed = []) b := by
  have hopen : b.state.status.isTerminal = false := by
    cases hterminal : b.state.status.isTerminal with
    | false => rfl
    | true => exact (h.tenured.decided hterminal).symm.trans h.joined
  rw [RunTask.lead]
  have hset : b.MaySet n .running := ⟨hopen, (fun h => by cases h), (fun h => by cases h)⟩
  apply (h.abides_set hset).bind
  rintro _ b ⟨h, hstatus⟩
  apply Task.Abides.now_bind
  intro began
  apply (h.abides_emit _).bind
  rintro _ b₁ ⟨h, hstatus₁, -⟩
  apply h.abides_tours.bind
  rintro reports b₂ ⟨h, hstatus₂⟩
  apply (h.abides_collect _).bind
  rintro devices b₃ ⟨h, hstatus₃⟩
  have hrunning : b₃.state.status = .running :=
    hstatus₃.trans (hstatus₂.trans (hstatus₁.trans hstatus))
  apply Task.Abides.isStopped_bind
  intro stopped hread
  have hread : stopped = b₃.state.stopRequested := hread
  apply Task.Abides.now_bind
  intro ended
  have hterminal : (if stopped then RunStatus.stopped else .completed).isTerminal = true := by
    cases stopped <;> rfl
  apply (h.abides_set ⟨by rw [hrunning]; rfl, fun _ => h.joined, fun hcompleted => ?_⟩).bind
  · rintro _ b₄ ⟨h, hdecided⟩
    apply (h.abides_archive ⟨hdecided, hterminal⟩).bind
    rintro _ b₅ ⟨h, hkept⟩
    apply h.abides_retire.bind
    rintro _ b₆ ⟨h, hstatus₆, hlisted⟩
    apply (h.abides_emit _).bind
    rintro _ b₇ ⟨-, hstatus₇, hlisted₇⟩
    exact ⟨hstatus₇.trans (hstatus₆.trans hkept), hterminal, hlisted₇.trans hlisted⟩
  · cases stopped with
    | true => cases hcompleted
    | false => exact hread.symm

end Presides

/-- The tasks of a run keep its tenure from the beginning. -/
theorem tenure_joined {run : RunState} (hrun : run.status.isTerminal = false) (n : Nat)
    (scenarios : List Graph) : (tenure run n).Joined scenarios where
  blank := blank_tenured hrun
  lead {b} hd := by
    have hblank : Presides run n false (blank run) :=
      ⟨blank_sound run, blank_tenured hrun, rfl, rfl⟩
    apply (hblank.drift hd).1.abides_lead.mono
    intro b r hr
    cases r with
    | none => exact hr.elim
    | some r =>
      rintro r' ⟨⟩
      exact hr
  tour := by
    rintro t place b - - hid - hd
    have ho := hd.1.still (blank_open (n := n) hid)
    have hbegun : (tenure run n).may (.tour n place t.deviceId) b .begun :=
      keepsStatus_of_changes rfl
    refine ⟨hbegun, ?_⟩
    intro b' hd'
    have ho' : b'.Open run (.tour n place t.deviceId) := hd'.1.still (Open.call (c := .begun) ho)
    have habides : t.conduct.Abides ((tenure run n).terms (.tour n place t.deviceId))
        (Task.Upon (fun b => b.Open run (.tour n place t.deviceId)) fun _ b =>
          True ∧ b.Open run (.tour n place t.deviceId)) b' :=
      Accord.abides_only t.does_conduct ho' (fun b b' ho hd => hd.1.still ho) fun c b hc ho =>
        ⟨⟨ho, hc.steady, hc.keepsStatus⟩, ho.call c⟩
    apply habides.mono
    intro b r hr
    cases r with
    | none => exact ⟨hr, trivial⟩
    | some r => exact ⟨hr.2, trivial⟩

end DeviceSuite
