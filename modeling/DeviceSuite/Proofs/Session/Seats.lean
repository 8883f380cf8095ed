import DeviceSuite.Proofs.Artifact.Line
import DeviceSuite.Proofs.Session.Ledger

/-!
# Seats at the desk

A task stands in the queue of the desk exactly while it stands at a save: it goes in when the save
is to be made, is inside while the save is under way, and has left when the save is answered. So
whoever waits for a place waits for a task that is at a save itself.
-/

namespace DeviceSuite

/-- The call at which a strand stands. -/
def Strand.call? {C : Type} {R : C → Type} {α : Type} : Strand R α → Option C
  | waiting c _ | calling _ c _ => some c
  | _ => none

/-- Whether a call saves an artifact. -/
def RunCall.saves : RunCall → Bool
  | save _ _ => true
  | _ => false

namespace World

variable {σ : Type} (service : Service DeviceCall.Reply σ) (w : World σ) (l : Role) (c : RunCall)

/-- The queue of the desk, if there is a desk. -/
def queue? (w : World σ) : Option (PlaceQueue Role) := w.desk.map ArtifactDesk.queue

/-- To accept a call leaves the queue as it is. -/
@[simp] theorem accept_queue? : (w.accept service l c).1.queue? = w.queue? := by
  obtain ⟨_, _, _, h⟩ := w.accept_eq service l c
  rw [h]
  rfl

/-- A save that is announced asks for a place, and no other call does. -/
theorem announce_queue? : (w.announce l c).queue? =
    if c.saves then w.queue?.map (·.request l) else w.queue? := by
  cases c with
  | save context artifact =>
    simp [queue?, announce, RunCall.saves, Function.comp_def, ArtifactDesk.request]
  | _ => rfl

/-- A save that is answered leaves its place, and no other call does. -/
theorem answer_queue? : (w.answer service l c).1.queue? =
    if c.saves then w.queue?.map (·.leave l) else w.queue? := by
  have hsink : ∀ f, (w.updateSink f).queue? = w.queue? := fun f => by
    simp [queue?, updateSink, Function.comp_def, ArtifactDesk.mapSink]
  have hanswers := w.answers service l c
  cases c with
  | save context artifact =>
    generalize (w.answer service l (.save context artifact)).1 = w' at hanswers ⊢
    cases hanswers with
    | unsaved hdesk => simp [queue?, hdesk, RunCall.saves]
    | saved hdesk => simp [queue?, hdesk, RunCall.saves, ArtifactDesk.save_queue]
  | register context => exact hsink _
  | unregister context => exact hsink _
  | _ => simp [queue?, hanswers.desk_eq, RunCall.saves]

/-- A task that ends leaves the queue as it is. -/
@[simp] theorem finish_queue? (ending : Option RoleResult) :
    (w.finish l ending).queue? = w.queue? := by
  cases l <;> rfl

variable {w l c} {before : Option (PlaceQueue Role)} {X Y : PlaceQueue Role → Prop}

/-- The queue of the desk is orderly, and has changed at most on account of one task. -/
def Seats (l : Role) (before : Option (PlaceQueue Role)) (X : PlaceQueue Role → Prop)
    (w : World σ) : Prop :=
  ∀ q, w.queue? = some q → ∃ q₀, before = some q₀ ∧ q.Orderly ∧ q₀.Spares l q ∧ X q

/-- A task that makes no call is not in the queue. -/
def Away (l : Role) (before : Option (PlaceQueue Role)) : World σ → Prop :=
  Seats l before fun q => l ∉ q.line

/-- A task whose call is to be made stands in the line if it is a save. -/
def Lined (l : Role) (before : Option (PlaceQueue Role)) (c : RunCall) : World σ → Prop :=
  Seats l before fun q => (l ∈ q.line ↔ c.saves = true)

/-- A task whose call is under way is inside if it is a save. -/
def Served (l : Role) (before : Option (PlaceQueue Role)) (c : RunCall) : World σ → Prop :=
  Seats l before fun q => (l ∈ q.line ↔ c.saves = true) ∧ (c.saves = true → l ∈ q.inside)

/-- A task that is away stands in the line when it announces a save. -/
theorem Away.announce (h : w.Away l before) (c : RunCall) : (w.announce l c).Lined l before c := by
  intro q hq
  rw [announce_queue?] at hq
  cases hc : c.saves with
  | false =>
    rw [hc] at hq
    obtain ⟨q₀, hbefore, horderly, hspares, hout⟩ := h q hq
    exact ⟨q₀, hbefore, horderly, hspares, iff_of_false hout (by simp)⟩
  | true =>
    rw [hc] at hq
    obtain ⟨q', hq', rfl⟩ : ∃ q', w.queue? = some q' ∧ q'.request l = q :=
      Option.map_eq_some_iff.1 hq
    obtain ⟨q₀, hbefore, horderly, hspares, hout⟩ := h q' hq'
    exact ⟨q₀, hbefore, horderly.request hout, hspares.trans (q'.spares_request l),
      iff_of_true (PlaceQueue.mem_line_request.2 (.inr rfl)) rfl⟩

/-- A task that stands in the line is inside when its save is admitted. -/
theorem Lined.accept (h : w.Lined l before c) (hadm : w.admits l c = true) :
    (w.accept service l c).1.Served l before c := by
  intro q hq
  rw [accept_queue?] at hq
  obtain ⟨q₀, hbefore, horderly, hspares, hline⟩ := h q hq
  refine ⟨q₀, hbefore, horderly, hspares, hline, fun hc => ?_⟩
  cases c with
  | save context artifact =>
    obtain ⟨desk, hdesk, rfl⟩ := Option.map_eq_some_iff.1 hq
    simpa [admits, hdesk, PlaceQueue.admits] using hadm
  | _ => cases hc

/-- A task that was served is away when its save is answered. -/
theorem Served.answer (h : w.Served l before c) : (w.answer service l c).1.Away l before := by
  intro q hq
  rw [answer_queue?] at hq
  cases hc : c.saves with
  | false =>
    rw [hc] at hq
    obtain ⟨q₀, hbefore, horderly, hspares, hline, -⟩ := h q hq
    exact ⟨q₀, hbefore, horderly, hspares, fun hl => by simp [hline.1 hl] at hc⟩
  | true =>
    rw [hc] at hq
    obtain ⟨q', hq', rfl⟩ : ∃ q', w.queue? = some q' ∧ q'.leave l = q :=
      Option.map_eq_some_iff.1 hq
    obtain ⟨q₀, hbefore, horderly, hspares, -, hinside⟩ := h q' hq'
    exact ⟨q₀, hbefore, horderly.leave l,
      hspares.trans (PlaceQueue.spares_leave horderly (hinside hc)),
      fun hl => ((PlaceQueue.mem_line_leave horderly (hinside hc)).1 hl).2 rfl⟩

/-- The calls of a task keep its seat. -/
theorem keeps_seats (before : Option (PlaceQueue Role)) : (host service).Keeps l (fun _ => True)
    (Away l before) (Lined l before) (Served l before) :=
  Host.keeps_of_phases (fun _ c _ h => h.announce c) (fun _ _ _ h hadm => h.accept service hadm)
    fun _ _ _ h => h.answer service

end World

/-- A strand stands in the line of a queue while it stands at a save, and is inside while the save
is under way. -/
structure PlaceQueue.Seated (q : PlaceQueue Role) (e : Role × Strand RunCall.Reply RoleResult) :
    Prop where
  line : e.1 ∈ q.line ↔ ∃ c, e.2.call? = some c ∧ c.saves = true
  inside : ∀ due c next, e.2 = .calling due c next → c.saves = true → e.1 ∈ q.inside

namespace World

variable {σ : Type} {service : Service DeviceCall.Reply σ} {w : World σ} {l : Role}
  {before : Option (PlaceQueue Role)} {strand : Strand RunCall.Reply RoleResult}

/-- A strand with its seat, before it goes on. -/
theorem stands_of_seated (h : ∀ q, w.queue? = some q → q.Orderly ∧ q.Seated (l, strand)) :
    strand.Stands (Away l w.queue?) (Lined l w.queue?) (Served l w.queue?) w := by
  have hseats : ∀ X : PlaceQueue Role → Prop,
      (∀ q, q.Seated (l, strand) → X q) → w.Seats l w.queue? X := fun X hX q hq =>
    ⟨q, hq, (h q hq).1, .refl l q, hX q (h q hq).2⟩
  cases strand with
  | waiting c next => exact hseats _ fun q hq => by simpa [Strand.call?] using hq.line
  | calling due c next =>
    exact hseats _ fun q hq => ⟨by simpa [Strand.call?] using hq.line, hq.inside due c next rfl⟩
  | ended result => trivial
  | _ => exact hseats _ fun q hq => by simpa [Strand.call?] using hq.line

/-- A strand with its seat, after it has gone on. -/
theorem seated_of_leaves (h : (host service).Leaves l (Away l before) (Lined l before)
    (Served l before) (w, strand)) :
    w.Seats l before fun q => q.Seated (l, strand) := by
  have haway : w.Away l before → strand.call? = none →
      w.Seats l before fun q => q.Seated (l, strand) := by
    intro haway hcall q hq
    obtain ⟨q₀, hbefore, horderly, hspares, hout⟩ := haway q hq
    refine ⟨q₀, hbefore, horderly, hspares, iff_of_false hout (by simp [hcall]), ?_⟩
    rintro due c next rfl
    cases hcall
  cases strand with
  | ready task => exact haway h.1 rfl
  | resting due next => exact haway h.1 rfl
  | waiting c next =>
    intro q hq
    obtain ⟨q₀, hbefore, horderly, hspares, hline⟩ := h.1 q hq
    exact ⟨q₀, hbefore, horderly, hspares, by simpa [Strand.call?] using hline,
      fun _ _ _ h => by cases h⟩
  | calling due c next =>
    intro q hq
    obtain ⟨q₀, hbefore, horderly, hspares, hline, hinside⟩ := h.1 q hq
    refine ⟨q₀, hbefore, horderly, hspares, by simpa [Strand.call?] using hline, ?_⟩
    rintro _ _ _ ⟨⟩
    exact hinside
  | ended result =>
    obtain ⟨w', hw', rfl⟩ := h.2 result rfl
    apply haway _ rfl
    intro q hq
    exact hw' q (w'.finish_queue? l result ▸ hq)

end World

/-- The desk of a session is in order: the queue is, only tasks stand in it, and each where it
should. -/
structure Session.Tidy {σ : Type} (s : Session σ) : Prop where
  queue : ∀ q, s.world.queue? = some q → q.Orderly
  known : ∀ q, s.world.queue? = some q → ∀ l ∈ q.line, l ∈ s.pool.strands.map (·.1)
  seated : ∀ q, s.world.queue? = some q → ∀ e ∈ s.pool.strands, q.Seated e

/-- The queue of a new desk is empty. -/
def SessionPlan.Furnished {σ : Type} (plan : SessionPlan σ) : Prop :=
  ∀ make, plan.desk = some make → ∀ places, (make places).queue = .ofPlaces places

namespace Session

variable {σ : Type} {s s' : Session σ} {more : Calls} {q : PlaceQueue Role}

/-- The desk stays in order when a strand takes its turn. -/
theorem Tidy.takeTurn (h : s.Tidy) (hn : s.Numbered) {i : Nat}
    (able : s.pool.isAble s.host i = true) : (s.takeTurn i).Tidy := by
  obtain ⟨l, strand, hi, -⟩ := takeTurn_spec able
  have hmem := List.mem_of_getElem? hi
  have hstands := World.stands_of_seated fun q hq => ⟨h.queue q hq, h.seated q hq _ hmem⟩
  obtain ⟨strand', hstrands, -, hleaves⟩ :=
    takeTurn_keeps hi able (World.keeps_seats s.plan.service s.world.queue?) strand.makes_any hstands
  have hseats := World.seated_of_leaves hleaves
  have hlabels : (s.takeTurn i).pool.strands.map (·.1) = s.pool.strands.map (·.1) := by
    rw [hstrands]
    exact Company.map_set_label hi _
  constructor
  case queue =>
    intro q hq
    obtain ⟨_, -, horderly, -⟩ := hseats q hq
    exact horderly
  case known =>
    intro q hq l' hl'
    obtain ⟨q₀, hbefore, -, hspares, -⟩ := hseats q hq
    rw [hlabels]
    by_cases hne : l' = l
    · exact hne ▸ List.mem_map_of_mem hmem
    · exact h.known q₀ hbefore l' ((hspares.line l' hne).1 hl')
  case seated =>
    intro q hq e he
    obtain ⟨q₀, hbefore, -, hspares, hseated⟩ := hseats q hq
    rw [hstrands] at he
    rcases Company.mem_set_label hn.labels hi he with rfl | ⟨hold, hne⟩
    · exact hseated
    · have hbefore' := h.seated q₀ hbefore e hold
      exact ⟨(hspares.line e.1 hne).trans hbefore'.line, fun due c next hcalling hc =>
        hspares.inside e.1 hne (hbefore'.inside due c next hcalling hc)⟩

/-- A strand that is no call is seated where it is not in the line. -/
theorem seated_newStrands {run : RunState} {scenarios : List Graph} {q : PlaceQueue Role}
    {e : Role × Strand RunCall.Reply RoleResult} (he : e ∈ s.newStrands run scenarios)
    (hout : e.1 ∉ q.line) : q.Seated e := by
  obtain rfl | ⟨place, id, -, rfl⟩ := mem_newStrands scenarios he
  · exact ⟨iff_of_false hout (by simp [Strand.call?]), fun _ _ _ h => by cases h⟩
  · exact ⟨iff_of_false hout (by simp [tour, Strand.call?, RunCall.saves]), fun _ _ _ h => by cases h⟩

/-- The desk stays in order when a run is launched. -/
theorem Tidy.launch (h : s.Tidy) (hn : s.Numbered) (suiteId suiteName : String) (request : Request)
    (scenarios : List Graph) : (s.launch suiteId suiteName request scenarios).1.Tidy := by
  have hqueue : (s.launch suiteId suiteName request scenarios).1.world.queue? = s.world.queue? := by
    rw [world_launch]
    rfl
  refine ⟨fun q hq => h.queue q (hqueue ▸ hq), fun q hq l hl => ?_, fun q hq e he => ?_⟩
  · rw [strands_launch, List.map_append]
    exact List.mem_append_left _ (h.known q (hqueue ▸ hq) l hl)
  · rw [strands_launch] at he
    rcases List.mem_append.1 he with he | he
    · exact h.seated q (hqueue ▸ hq) e he
    · exact seated_newStrands he fun hline =>
        hn.not_mem_newStrands he (h.known q (hqueue ▸ hq) e.1 hline)

/-- The desk stays in order whatever happens next. -/
theorem Tidy.next (h : s.Tidy) (hn : s.Numbered) (hnext : Next s more s') : s'.Tidy := by
  cases hnext with
  | turn able => exact h.takeTurn hn able
  | launch suiteId suiteName accepted => exact h.launch hn suiteId suiteName _ _
  | _ => exact ⟨h.queue, h.known, h.seated⟩

/-- Nothing that happens changes the plan. -/
theorem Next.plan_eq (h : Next s more s') : s'.plan = s.plan := by
  cases h <;> rfl

/-- A new desk is in order. -/
theorem tidy_setUp {plan : SessionPlan σ} {source : SettingsSource} (h : setUp plan source = .ok s)
    (hplan : plan.Furnished) : s.Tidy := by
  obtain ⟨-, hstrands, -, -, places, hdesk⟩ := setUp_blank h
  have hnew : ∀ q, s.world.queue? = some q → q = .ofPlaces places := by
    intro q hq
    rw [World.queue?, hdesk] at hq
    obtain ⟨desk, hdesk, rfl⟩ := Option.map_eq_some_iff.1 hq
    obtain ⟨make, hmake, rfl⟩ := Option.map_eq_some_iff.1 hdesk
    exact hplan make hmake places
  refine ⟨fun q hq => hnew q hq ▸ PlaceQueue.orderly_ofPlaces places, fun q hq l hl => ?_,
    fun q hq e he => ?_⟩
  · rw [hnew q hq] at hl
    exact absurd hl List.not_mem_nil
  · rw [hstrands] at he
    exact absurd he List.not_mem_nil

/-- The desk has been in order since the session was opened. -/
theorem Opened.tidy (h : Opened s) (hplan : s.plan.Furnished) : s.Tidy := by
  induction h with
  | setUp h => exact tidy_setUp h ((setUp_blank h).1 ▸ hplan)
  | next ho hnext ih => exact (ih (hnext.plan_eq ▸ hplan)).next ho.numbered hnext

/-- When no task is able to go on and none is in a call, none waits for a place at the desk: there
would be one inside, and nothing would keep it there. -/
theorem Tidy.saves_eq_false (h : s.Tidy)
    (hstill : ∀ e ∈ s.pool.strands, s.host.isAble s.world e.1 e.2 = false ∧ e.2.due? = none)
    {l : Role} {c : RunCall} {next : Option c.Reply → Task RunCall.Reply RoleResult}
    (he : (l, .waiting c next) ∈ s.pool.strands) : c.saves = false := by
  cases c with
  | save context artifact =>
    exfalso
    have hout : s.world.desk.all (·.queue.admits l) = false := (hstill _ he).1
    obtain ⟨desk, hdesk⟩ : ∃ desk, s.world.desk = some desk := by
      cases hdesk : s.world.desk with
      | none => simp [hdesk] at hout
      | some desk => exact ⟨desk, rfl⟩
    have hqueue : s.world.queue? = some desk.queue := congrArg (Option.map _) hdesk
    have hline : l ∈ desk.queue.line := (h.seated _ hqueue _ he).line.2 ⟨_, rfl, rfl⟩
    obtain ⟨l', hinside⟩ :=
      List.exists_mem_of_ne_nil _ ((h.queue _ hqueue).inside_ne_nil hline)
    have hline' : l' ∈ desk.queue.line := PlaceQueue.mem_line.2 (.inl hinside)
    obtain ⟨⟨_, strand⟩, hmem, rfl⟩ := List.mem_map.1 (h.known _ hqueue l' hline')
    obtain ⟨c', hcall, hsaves⟩ := (h.seated _ hqueue _ hmem).line.1 hline'
    obtain ⟨hable, hdue⟩ := hstill _ hmem
    cases strand with
    | waiting c next =>
      obtain rfl : c = c' := Option.some.inj hcall
      cases c with
      | save _ _ =>
        simp [Host.isAble, host, World.host, World.admits, hdesk, PlaceQueue.admits, hinside] at hable
      | _ => cases hsaves
    | calling due c next => cases hdue
    | _ => cases hcall
  | _ => rfl

end Session

end DeviceSuite
