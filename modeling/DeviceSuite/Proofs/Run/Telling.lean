import DeviceSuite.Proofs.Run.Chronicle
import DeviceSuite.Proofs.Run.Touring
import DeviceSuite.Proofs.Session.Watch

/-!
# Keeping the chronicle

The tasks of a run keep its chronicle. What a task tells is what its transcript says, so a tour is
known by what it would tell whatever it is told; the lead is followed from one call to the next.
-/

namespace DeviceSuite

open Calls

namespace Books

variable {run : RunState} {b : Books} {l : Role}

/-- An answer is no call of any task. -/
theorem own_answered (b : Books) (l other : Role) (c : RunCall) :
    (b.answered l c).own other = b.own other := by
  cases c <;> rfl

/-- A task that notes a call has not ended. -/
theorem Open.note (ho : b.Open run l) (c : RunCall) : (b.note l c).Open run l := by
  cases l <;> exact ho

/-- A task that is answered has not ended. -/
theorem Open.answered (ho : b.Open run l) (c : RunCall) : (b.answered l c).Open run l := by
  cases l <;> cases c <;> exact ho

/-- A call that is noted is one more of the task that makes it. -/
theorem own_note (b : Books) (l : Role) (c : RunCall) :
    (b.note l c).own l = b.own l ++ [⟨l, c, b.state.stopRequested⟩] := by
  simp [own, note, List.filter_append]

end Books

namespace Accord

variable {run : RunState} {n : Nat} {A : Accord run n} {l : Role} {b : Books}

/-- A call tells its event when it is answered, and an event is always answered. -/
theorem eventsOf_reply {c : RunCall} {reply : Option c.Reply} (h : b.Replies c reply)
    (told : List (Answer RunCall.Reply)) :
    eventsOf (.reply c reply :: told) = c.event?.toList ++ eventsOf told := by
  cases c with
  | emit e =>
    obtain ⟨_, rfl⟩ := Option.isSome_iff_exists.1 h
    rfl
  | _ => exact eventsOf_silent rfl

/-- A task leaves a transcript, and its calls tell the events of it. -/
theorem abides_told {α : Type} {t : RunTask α} {H : RunCall → Prop} {P : α → Prop}
    (ht : t.Only H P) (ho : b.Open run l)
    (hmay : ∀ c b, H c → b.Open run l → c.Steady ∧ A.may l b c) :
    t.Abides (A.terms l) (fun b' r => b'.Open run l ∧ ∃ told, t.Yields told r ∧
      tellings (b'.own l) = tellings (b.own l) ++ eventsOf told) b := by
  induction t generalizing b with
  | done a => exact ⟨ho, [], .done, (List.append_nil _).symm⟩
  | crash => exact ⟨ho, [], .crash, (List.append_nil _).symm⟩
  | clock next ih =>
    exact fun ms => (ih ms (ht ms) ho).mono fun _ _ ⟨ho', told, hyields, htold⟩ =>
      ⟨ho', _, .clock hyields, htold⟩
  | stopRequested next ih =>
    exact fun raised _ => (ih raised (ht raised) ho).mono fun _ _ ⟨ho', told, hyields, htold⟩ =>
      ⟨ho', _, .stopRequested hyields, htold⟩
  | pause ms next ih =>
    intro b₁ raised hd _
    apply (ih _ (ht _) (hd.1.still ho)).mono
    rintro b' r ⟨ho', told, hyields, htold⟩
    exact ⟨ho', _, .pause hyields, hd.1.own ho ▸ htold⟩
  | giveWay next ih =>
    intro b₁ hd
    apply (ih ht (hd.1.still ho)).mono
    rintro b' r ⟨ho', told, hyields, htold⟩
    exact ⟨ho', _, .giveWay hyields, hd.1.own ho ▸ htold⟩
  | call c next ih =>
    intro b₁ hw
    have hd := Terms.drifts_of_waits hw
    have ho₁ := hd.1.still ho
    apply admits ⟨ho₁, hmay c b₁ ht.1 ho₁⟩
    intro b₂ reply hd₂ _ _ hreply
    have ho₂ := hd₂.1.still (ho₁.note c)
    have hown : b₂.own l = b.own l ++ [⟨l, c, b₁.state.stopRequested⟩] := by
      rw [hd₂.1.own (ho₁.note c), Books.own_note, hd.1.own ho]
    apply (ih reply (ht.2 reply) (ho₂.answered c)).mono
    rintro b' r ⟨ho', told, hyields, htold⟩
    refine ⟨ho', _, .call hyields, ?_⟩
    rw [htold, Books.own_answered, hown, eventsOf_reply hreply]
    simp

end Accord

namespace Tour

variable {run : RunState} {n : Nat} {b : Books} {t : Tour} {place : Nat}

/-- A tour keeps the chronicle. -/
theorem abides_conduct_told (hrun : t.run = run) (ho : b.Open run (.tour n place t.deviceId))
    (hnone : tellings (b.own (.tour n place t.deviceId)) = []) :
    t.conduct.Abides ((chronicle run n).terms (.tour n place t.deviceId))
      (fun b r => b.Open run (.tour n place t.deviceId) ∧
        Books.EndsTold run n (.tour n place t.deviceId) b (r.map .tour)) b := by
  have hmay : ∀ c b, t.Makes c → b.Open run (.tour n place t.deviceId) →
      c.Steady ∧ (chronicle run n).may (.tour n place t.deviceId) b c := fun c b hc _ =>
    ⟨hc.1, hc.2.1, hrun ▸ hc.2.2⟩
  apply (Accord.abides_told t.only_conduct ho hmay).mono
  rintro b' r ⟨ho', told, hyields, htold⟩
  refine ⟨ho', ?_⟩
  have hr : RoleResult.tour? (r.map .tour) = r := by cases r <;> rfl
  rw [hnone, List.nil_append] at htold
  rw [Books.EndsTold, hr, htold]
  exact hrun ▸ Tour.told hyields

end Tour

/-- A lead that has made these calls has not told the last event, and its run has no result. -/
structure Leading (run : RunState) (n : Nat) (own : Calls) (b : Books) : Prop where
  sound : b.Sound run
  chronicled : b.Chronicled run n
  result : b.crew.result = none
  unfinished : ∀ event ∈ tellings b.calls, event.isTerminal = false
  own : b.own (.lead n) = own

/-- Only a call that waits is told of the tours. -/
theorem RunCall.ne_tours {c : RunCall} (hp : c.pace ≠ .awaited) : c ≠ tours := by
  rintro rfl
  exact hp rfl

namespace Leading

variable {run : RunState} {n : Nat} {own : Calls} {b b' : Books} {c : RunCall}

/-- A lead that has not begun leads. -/
theorem blank (run : RunState) (n : Nat) : Leading run n [] (.blank run) :=
  ⟨Books.blank_sound run, Books.blank_chronicled run n, rfl,
    fun _ he => absurd he List.not_mem_nil, rfl⟩

/-- A lead goes on to lead while the others go on. -/
theorem drift (h : Leading run n own b) (hd : ((chronicle run n).terms (.lead n)).drifts b b') :
    Leading run n own b' := by
  obtain ⟨hresult, hunfinished⟩ := hd.2.2 trivial rfl
  exact ⟨hd.1.sound h.sound, hd.2.1 h.sound h.chronicled, hresult.trans h.result,
    hunfinished h.unfinished, (hd.1.own trivial).trans h.own⟩

/-- What a lead may tell before the last event. -/
theorem may (h : Leading run n own b) (hc : c.Steady) (htell : ∀ event ∈ c.event?,
      event.runId = run.runId ∧ event.deviceId? = none ∧ event.isTerminal = false) :
    ((chronicle run n).terms (.lead n)).may b c := by
  refine ⟨trivial, hc, h.result, h.unfinished, fun event he => ?_⟩
  obtain ⟨hrun, hdevice, hterminal⟩ := htell event he
  refine ⟨hrun, hdevice, fun hlast => ?_⟩
  rw [hterminal] at hlast
  cases hlast

/-- A lead that makes a call which is not its last event goes on to lead. -/
theorem call (h : Leading run n own b) (hc : c.Steady) (htell : ∀ event ∈ c.event?,
      event.runId = run.runId ∧ event.deviceId? = none ∧ event.isTerminal = false)
    (hcomplete : c = .tours → b.crew.isComplete = true) :
    Leading run n (own ++ [⟨.lead n, c, b.state.stopRequested⟩])
      ((b.note (.lead n) c).answered (.lead n) c) := by
  have hmay := (h.may hc htell).2.2
  refine ⟨h.sound.call hc, h.chronicled.call h.sound rfl trivial hmay hcomplete, ?_, ?_, ?_⟩
  · rw [Books.crew_call]
    exact h.result
  · intro event he
    rw [Books.calls_call, tellings_append, List.mem_append] at he
    rcases he with he | he
    · exact h.unfinished event he
    · obtain ⟨e, he, hevent⟩ := mem_tellings.1 he
      obtain rfl := List.mem_singleton.1 he
      exact (htell event hevent).2.2
  · rw [Books.own_call, h.own]

/-- A call of the lead that is answered at once. -/
theorem abides_instant (h : Leading run n own b) (hp : c.pace = .instant) (hc : c.Steady)
    (htell : ∀ event ∈ c.event?,
      event.runId = run.runId ∧ event.deviceId? = none ∧ event.isTerminal = false) :
    (Task.ask c).Abides ((chronicle run n).terms (.lead n))
      (Task.Upon (fun _ => False) fun _ b' =>
        Leading run n (own ++ [⟨.lead n, c, b.state.stopRequested⟩]) b' ∧
        b'.state.stopRequested = b.state.stopRequested ∧ b'.crew = b.crew) b := by
  apply Accord.abides_instant hp (h.may hc htell)
  intro reply hreply
  obtain ⟨a, rfl⟩ := Option.isSome_iff_exists.1 (hreply.isSome hp)
  have htours : c ≠ .tours := RunCall.ne_tours fun h => by simp [hp] at h
  exact ⟨h.call hc htell fun h => absurd h htours, Books.stopRequested_call hc, Books.crew_call ..⟩

/-- A call of the lead that is begun at once and answered in time. -/
theorem abides_prompt (h : Leading run n own b) (hp : c.pace = .prompt) (hc : c.Steady)
    (htell : ∀ event ∈ c.event?,
      event.runId = run.runId ∧ event.deviceId? = none ∧ event.isTerminal = false)
    (hreply : ∀ (b : Books) reply, b.Replies c reply → reply.isSome = true) :
    (Task.ask c).Abides ((chronicle run n).terms (.lead n))
      (Task.Upon (fun _ => False) fun _ b' =>
        Leading run n (own ++ [⟨.lead n, c, b.state.stopRequested⟩]) b' ∧
        (b.crew.isComplete = true → b'.crew.isComplete = true)) b := by
  apply Task.abides_ask.2
  intro b₁ hw
  have hp' : ((chronicle run n).terms (.lead n)).pace c = .prompt := hp
  obtain rfl : b₁ = b := by simpa [Terms.waits, hp', Pace.waits] using hw
  have hinstant : c.pace ≠ .instant := by simp [hp]
  have htours : c ≠ .tours := RunCall.ne_tours fun h => by simp [hp] at h
  have hcall := h.call hc htell fun h => absurd h htours
  rw [Accord.answered_of_pace hinstant] at hcall
  apply Accord.admits (h.may hc htell)
  intro b₂ reply hd _ _ hanswer
  obtain ⟨a, rfl⟩ := Option.isSome_iff_exists.1 (hreply b₂ reply hanswer)
  rw [Accord.answered_of_pace hinstant]
  refine ⟨hcall.drift hd, fun hcomplete => ?_⟩
  exact (Books.isComplete_of_tally (hd.1.tally rfl hcomplete)).trans hcomplete

/-- A run that has been retired is not listed. -/
theorem abides_retire (h : Leading run n own b) :
    (Task.ask RunCall.retire).Abides ((chronicle run n).terms (.lead n))
      (Task.Upon (fun _ => False) fun _ b' =>
        Leading run n (own ++ [⟨.lead n, .retire, b.state.stopRequested⟩]) b' ∧
        b'.listed = [] ∧ b'.crew = b.crew) b := by
  have hsteady : RunCall.retire.Steady := RunCall.steady_of_changes rfl
  apply Accord.abides_instant rfl (h.may hsteady (RunCall.forall_event? rfl))
  intro reply hreply
  obtain ⟨a, rfl⟩ := Option.isSome_iff_exists.1 hreply
  refine ⟨h.call hsteady (RunCall.forall_event? rfl) (fun h => by cases h),
    List.filter_eq_nil_iff.2 fun id hid => ?_, rfl⟩
  have hrun : b.state.title.runId = run.title.runId := congrArg RunState.runId h.sound.title
  have hid : id = b.state.runId := (h.chronicled.listed id hid).trans hrun.symm
  simpa [Books.note] using hid

end Leading

namespace RunTask

variable {run : RunState} {n : Nat} {own : Calls} {b : Books}

/-- The lead waits for the tours, and reads the stop flag as it was when it was told of them. -/
theorem abides_tours_told (h : Leading run n own b) :
    (Task.ask RunCall.tours).Abides ((chronicle run n).terms (.lead n))
      (Task.Upon (fun _ => False) fun _ b' =>
        Leading run n (own ++ [⟨.lead n, .tours, b'.state.stopRequested⟩]) b' ∧
        b'.crew.isComplete = true) b := by
  have hsteady : RunCall.tours.Steady := RunCall.steady_of_changes rfl
  apply Accord.abides_awaited rfl
  intro b' hd
  have h' := h.drift hd
  refine ⟨h'.may hsteady (RunCall.forall_event? rfl), ?_⟩
  rintro _ hcomplete rfl
  exact ⟨h'.call hsteady (RunCall.forall_event? rfl) hcomplete, hcomplete rfl⟩

/-- While the lead collects what the tours ended with, it only changes the state of the run. -/
theorem abides_collect_told (h : Leading run n own b) (hcomplete : b.crew.isComplete = true)
    (entries : List (String × Option TourResult)) :
    (collect entries).Abides ((chronicle run n).terms (.lead n))
      (Task.Upon (fun _ => False) fun _ b' => ∃ settling, (∀ e ∈ settling, e.call.changes = true) ∧
        Leading run n (own ++ settling) b' ∧ b'.state.stopRequested = b.state.stopRequested ∧
        b'.crew.isComplete = true) b := by
  induction entries using collect.induct generalizing own b with
  | case1 =>
    exact ⟨[], fun _ he => absurd he List.not_mem_nil, (List.append_nil own).symm ▸ h, rfl,
      hcomplete⟩
  | case2 id result rest ih =>
    rw [collect]
    exact (ih h hcomplete).bind fun devices b' hb' => hb'
  | case3 id outcome rest houtcome ih =>
    rw [collect]
    · apply (h.abides_instant rfl (RunCall.steady_writeOff id) (RunCall.forall_event? rfl)).bind
      rintro _ b₁ ⟨h₁, hstop, hcrew⟩
      apply (ih h₁ (hcrew ▸ hcomplete)).upon (fun _ h => h)
      rintro devices b' ⟨settling, hsettling, h', hstop', hcomplete'⟩
      refine ⟨⟨.lead n, .update fun s => s.writeOff id, b.state.stopRequested⟩ :: settling,
        List.forall_mem_cons.2 ⟨rfl, hsettling⟩, ?_, hstop'.trans hstop, hcomplete'⟩
      rw [List.append_cons]
      exact h'
    · exact houtcome

/-- The lead closes its run: the result is archived, the run is retired, and the last event is
told. -/
theorem abides_closing {now : Instant} {opening settling : Calls} {joined : Begun RunCall Role}
    {r : SuiteResult}
    (h : Leading run n (opening ++ joined :: settling) b) (hcomplete : b.crew.isComplete = true)
    (hjoined : joined.call = .tours)
    (hopening : opening.map Begun.call =
      [.update fun s => s.withStatus .running, .emit (run.opening now)])
    (hsettling : ∀ e ∈ settling, e.call.changes = true)
    (hstatus : r.status = if joined.stopped then .stopped else .completed) :
    (do
      Task.ask (RunCall.archive r)
      Task.ask RunCall.retire
      emit (.ending run.runId joined.stopped r)
      return r : RunTask SuiteResult).Abides ((chronicle run n).terms (.lead n))
      (Task.Upon (fun _ => False) fun r b => Books.EndsTold run n (.lead n) b (some (.lead r))) b := by
  apply (h.abides_prompt (c := .archive r) rfl (RunCall.steady_of_changes rfl)
    (RunCall.forall_event? rfl)
    fun _ _ h => h).bind
  rintro _ b₁ ⟨h₁, hcomplete₁⟩
  apply h₁.abides_retire.bind
  rintro _ b₂ ⟨h₂, hlisted, hcrew⟩
  have hcomplete₂ : b₂.crew.isComplete = true := hcrew ▸ hcomplete₁ hcomplete
  have hsteady : (RunCall.emit (.ending run.runId joined.stopped r)).Steady :=
    RunCall.steady_of_changes rfl
  apply Task.Abides.bind (I := fun _ b => Books.EndsTold run n (.lead n) b (some (.lead r)))
  · apply Accord.abides_instant rfl
    · refine ⟨trivial, hsteady, h₂.result, h₂.unfinished, ?_⟩
      rintro event ⟨⟩
      exact ⟨Event.runId_ending .., Event.deviceId?_ending .., fun _ => ⟨hcomplete₂, hlisted⟩⟩
    · intro reply hreply
      obtain ⟨a, rfl⟩ := Option.isSome_iff_exists.1 hreply
      refine ⟨r, joined, rfl, ?_, hjoined, hstatus, ?_⟩
      · rw [Books.crew_call]
        exact hcomplete₂
      · rw [Books.own_call, h₂.own]
        simp only [List.append_assoc, List.cons_append]
        exact ⟨now, opening, settling, _, rfl, hopening, hsettling, rfl⟩
  · exact fun _ b hb => hb

/-- The lead keeps the chronicle. -/
theorem abides_lead_told (h : Leading run n [] b) :
    (lead run).Abides ((chronicle run n).terms (.lead n))
      (fun b r => Books.EndsTold run n (.lead n) b (r.map .lead)) b := by
  have hstatus : ∀ status, (RunCall.update fun s => s.withStatus status).Steady :=
    RunCall.steady_withStatus
  suffices h : (lead run).Abides ((chronicle run n).terms (.lead n))
      (Task.Upon (fun _ => False) fun r b => Books.EndsTold run n (.lead n) b (some (.lead r))) b by
    apply h.mono
    intro b r hr
    cases r with
    | none => exact hr.elim
    | some r => exact hr
  rw [lead]
  apply (h.abides_instant rfl (hstatus _) (RunCall.forall_event? rfl)).bind
  rintro _ b ⟨h, -⟩
  apply Task.Abides.now_bind
  intro began
  apply (h.abides_instant (c := .emit (run.opening (.ofMillis began))) rfl
    (RunCall.steady_of_changes rfl) (by rintro event ⟨⟩; exact ⟨rfl, rfl, rfl⟩)).bind
  rintro _ b ⟨h, -⟩
  apply (abides_tours_told h).bind
  rintro reports b ⟨h, hcomplete⟩
  apply (abides_collect_told h hcomplete _).bind
  rintro devices b₁ ⟨settling, hsettling, h₁, hstop, hcomplete⟩
  apply Task.Abides.isStopped_bind
  rintro stopped hread
  apply Task.Abides.now_bind
  intro ended
  apply (h₁.abides_instant rfl (hstatus _) (RunCall.forall_event? rfl)).bind
  rintro _ b₂ ⟨h₂, hstop₂, hcrew⟩
  obtain rfl : stopped = b.state.stopRequested := hread.trans hstop
  have hsettled : ∀ e ∈ settling ++ [⟨.lead n, .update fun s => s.withStatus
      (if b.state.stopRequested then .stopped else .completed), b₁.state.stopRequested⟩],
      e.call.changes = true := fun e he => by
    rcases List.mem_append.1 he with he | he
    · exact hsettling e he
    · obtain rfl := List.mem_singleton.1 he
      rfl
  rw [List.append_assoc, List.append_assoc] at h₂
  exact abides_closing (n := n) h₂ (hcrew ▸ hcomplete) rfl rfl hsettled rfl

end RunTask

/-- The tasks of a run keep its chronicle from the beginning. -/
theorem chronicle_joined (run : RunState) (n : Nat) (scenarios : List Graph) :
    (chronicle run n).Joined scenarios where
  blank := Books.blank_chronicled run n
  lead hd := RunTask.abides_lead_told ((Leading.blank run n).drift hd)
  tour := by
    rintro t place b hrun - hid - hd
    have hopen : (Books.blank run).Open run (.tour n place t.deviceId) := Books.blank_open hid
    have ho := hd.1.still hopen
    refine ⟨⟨rfl, RunCall.concerns_of_event? rfl _ _⟩, fun {b'} hd' => ?_⟩
    apply t.abides_conduct_told hrun (hd'.1.still (ho.note .begun))
    rw [hd'.1.own (ho.note .begun), Books.own_note, hd.1.own hopen]
    rfl

end DeviceSuite
