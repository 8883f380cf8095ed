import DeviceSuite.Proofs.Run.Silence
import DeviceSuite.Proofs.Run.Events
import DeviceSuite.Proofs.Session.Timely

/-!
# A tour left to itself

In a session whose moves are timely, a tour whose device nobody else has comes only to what it may
come to on its own: whatever the other tasks do, how long their devices take, and even if they
crash, nothing of it reaches the tour. The invariant is `Session.Secludes`, and each timely move
keeps it: the turns of the tour go as on its own by `World.plays`, the turns of others are unseen by
`World.keeps_unseen`, and time passes for the tour as for everyone.
-/

namespace DeviceSuite

/-- What a task may call among others: no task changes the flag of its run, a lead has no device and
does not wait for the run to begin, and a tour does not lead. -/
def Role.Calls (l : Role) (c : RunCall) : Prop :=
  c.Steady ∧ match l with
    | .lead _ => c.isDevice = false ∧ c ≠ .begun
    | .tour _ _ _ => c.isLeads = false

/-- A call of a lead is one that a lead makes. -/
theorem RunCall.OfLead.calls {c : RunCall} (h : c.OfLead) (n : Nat) : (Role.lead n).Calls c := by
  refine ⟨h.1.1, ?_, ?_⟩
  · cases c with
    | device c => cases h.1.2
    | _ => rfl
  · rintro rfl
    cases h.2 rfl

namespace Session

variable {σ : Type} {s s' : Session σ} {n place : Nat} {id : String} {stopAt : Option Nat}
  {Q : Option RoleResult → Prop} {m : Move}

/-- The tasks of a session call what they may. -/
theorem Opened.calls (ho : s.Opened) :
    ∀ e ∈ s.pool.strands, e.2.Makes e.1.Calls fun _ => True := by
  apply ho.makes (H := fun _ l => l.Calls)
  intro s run scenarios _ e he
  rcases List.mem_cons.1 he with rfl | he
  · exact Task.only_bind.2 (((RunTask.only_lead run).weaken fun _ h => h.calls _).mono
      fun _ _ => trivial)
  · obtain ⟨⟨id, place⟩, -, rfl⟩ := List.mem_map.1 he
    refine ⟨⟨RunCall.steady_of_changes rfl, rfl⟩, fun _ => ?_⟩
    exact Task.only_bind.2 (((Tour.only_conduct _).weaken fun _ h => ⟨h.1, h.2.1⟩).mono
      fun _ _ => trivial)

/-- A tour is left to itself: nobody else has its device, its run has begun or is about to, and from
where it stands it comes only to what is expected of it. -/
structure Secludes (s : Session σ) (n place : Nat) (id : String) (stopAt : Option Nat)
    (Q : Option RoleResult → Prop) : Prop where
  opened : s.Opened
  swift : s.plan.Swift
  aloof : s.plan.service.Aloof
  awaits : s.world.Awaits n stopAt
  lead : .lead n ∈ s.pool.strands.map (·.1)
  begun : s.world.Begun n ∨ ∃ calls run, s.Dormant calls n run
  alone : ∀ m p strand, (.tour m p id, strand) ∈ s.pool.strands →
    m = n ∧ p = place ∨ strand.result?.isSome = true
  tour : ∃ strand, (.tour n place id, strand) ∈ s.pool.strands ∧
    strand.InTime (fun c => c.Steady ∧ c.isLeads = false) (fun c => c = .begun)
      (fun c => c.isDevice = true) s.now ∧
    ∀ r, strand.ComesTo (s.plan.service.seclusion s.plan.recorder) (s.world.seen stopAt id) r → Q r

namespace Secludes

/-! ## Turns -/

section Turns

variable {i : Nat} {l : Role} {strand : Strand RunCall.Reply RoleResult}

/-- Where the strands take timely turns, the world is calm. -/
theorem calm (h : s.Secludes n place id stopAt Q)
    (hflag : s.world.isStopped n = stopAt.any (· ≤ s.now)) :
    s.world.Calm n stopAt s.plan.recorder :=
  let hsmooth := h.opened.smooth h.swift
  ⟨hsmooth.1, hsmooth.2, h.awaits.flagged hflag⟩

/-- No turn changes the flag. -/
theorem flagged_takeTurn (h : s.Secludes n place id stopAt Q)
    (able : s.pool.isAble s.host i = true)
    (hflag : s.world.isStopped n = stopAt.any (· ≤ s.now)) :
    (s.takeTurn i).world.Flagged n stopAt := by
  obtain ⟨l, strand, hi, -⟩ := takeTurn_spec able
  have hkeeps : s.host.Keeps l l.Calls (World.Flagged n stopAt) (fun _ => World.Flagged n stopAt)
      fun _ => World.Flagged n stopAt :=
    Host.keeps_of_phases (fun _ c _ hw => hw.announce l c)
      (fun _ c _ hw _ => hw.accept h.aloof l c) fun _ _ hc hw => hw.answer s.plan.service l hc.1
  have hflagged := h.awaits.flagged hflag
  have hstands : strand.Stands (World.Flagged n stopAt) (fun _ => World.Flagged n stopAt)
      (fun _ => World.Flagged n stopAt) s.world := by
    cases strand <;> first | exact hflagged | trivial
  obtain ⟨_, -, -, hleaves⟩ :=
    takeTurn_keeps hi able hkeeps (h.opened.calls _ (List.mem_of_getElem? hi)) hstands
  exact hleaves.shared (fun _ h => h) (fun _ _ h => h) (fun _ _ h => h) fun _ r h => h.finish l r

/-- Nobody else gets the device in a turn. -/
theorem alone_takeTurn (h : s.Secludes n place id stopAt Q)
    (able : s.pool.isAble s.host i = true) :
    ∀ m p strand, (.tour m p id, strand) ∈ (s.takeTurn i).pool.strands →
      m = n ∧ p = place ∨ strand.result?.isSome = true := by
  obtain ⟨l, strand, hi, hable, -, hstrands, -⟩ := takeTurn_spec able
  intro m p strand' hmem
  rw [hstrands] at hmem
  rcases List.mem_or_eq_of_mem_set hmem with hold | heq
  · exact h.alone m p strand' hold
  · obtain ⟨rfl, -⟩ := Prod.mk.inj heq
    refine (h.alone m p strand (List.mem_of_getElem? hi)).imp_right fun hended => ?_
    cases strand with
    | ended ending => cases hable
    | _ => cases hended

/-- A lead that is there still is after any turn. -/
theorem lead_takeTurn (h : s.Secludes n place id stopAt Q)
    (able : s.pool.isAble s.host i = true) : .lead n ∈ (s.takeTurn i).pool.strands.map (·.1) := by
  obtain ⟨l, strand, hi, -, -, hstrands, -⟩ := takeTurn_spec able
  rw [hstrands, Company.map_set_label hi]
  exact h.lead

/-- The tour goes on only when its run has begun. -/
theorem begun_of_isAble (h : s.Secludes n place id stopAt Q)
    (hi : s.pool.strands[i]? = some (.tour n place id, strand))
    (able : s.host.isAble s.world (.tour n place id) strand = true) : s.world.Begun n := by
  rcases h.begun with hbegun | ⟨calls, run, hdormant⟩
  · exact hbegun
  · cases hdormant.lead_of_isAble hi able rfl

/-- The tour goes on as it would on its own. -/
theorem takeTurn_self (h : s.Secludes n place id stopAt Q) (able : s.pool.isAble s.host i = true)
    (hflag : s.world.isStopped n = stopAt.any (· ≤ s.now))
    (hi : s.pool.strands[i]? = some (.tour n place id, strand)) :
    (s.takeTurn i).Secludes n place id stopAt Q := by
  obtain ⟨l, strand', hi', hable, hworld, hstrands, -⟩ := takeTurn_spec able
  obtain ⟨rfl, rfl⟩ := Prod.mk.inj (Option.some.inj (hi'.symm.trans hi))
  obtain ⟨mine, hmem, hintime, hcomes⟩ := h.tour
  obtain rfl := h.opened.numbered.strand_inj hmem (List.mem_of_getElem? hi)
  have hgoing := And.intro (h.calm hflag) (h.begun_of_isAble hi hable)
  obtain ⟨hgoing', hintime', hcomes'⟩ :=
    (World.plays h.aloof n place id stopAt s.plan.recorder).resume hable hintime hgoing
  have hplace : i < s.pool.strands.length := (List.getElem?_eq_some_iff.1 hi).1
  constructor
  case opened => exact h.opened.next (.turn able)
  case swift => exact h.swift
  case aloof => exact h.aloof
  case awaits => exact .inl (h.flagged_takeTurn able hflag)
  case lead => exact h.lead_takeTurn able
  case begun => exact .inl (hworld ▸ hgoing'.2)
  case alone => exact h.alone_takeTurn able
  case tour =>
    refine ⟨_, hstrands ▸ List.mem_set hplace _, ?_, fun r hr => hcomes r (hcomes' r ?_)⟩
    · rw [now, hworld]
      exact hintime'
    · rw [hworld] at hr
      exact hr

/-- Another task that goes on does nothing that the tour sees. -/
theorem unseen_takeTurn (h : s.Secludes n place id stopAt Q) (able : s.pool.isAble s.host i = true)
    (hflag : s.world.isStopped n = stopAt.any (· ≤ s.now))
    (hi : s.pool.strands[i]? = some (l, strand)) (hl : l ≠ .tour n place id) :
    (s.takeTurn i).world.Unseen n stopAt s.plan.recorder id (s.world.seen stopAt id) := by
  have hmem := List.mem_of_getElem? hi
  obtain ⟨l', strand', hi', hable, -⟩ := takeTurn_spec able
  obtain ⟨rfl, rfl⟩ := Prod.mk.inj (Option.some.inj (hi'.symm.trans hi))
  have hcalls : ∀ c, l'.Calls c → c.Steady ∧ (c.isDevice = true → World.deviceOf l' ≠ id) := by
    rintro c ⟨hsteady, hrole⟩
    refine ⟨hsteady, fun hdevice => ?_⟩
    cases l' with
    | lead m => simp [hdevice] at hrole
    | tour m p id' =>
      rintro rfl
      rcases h.alone m p strand' hmem with ⟨rfl, rfl⟩ | hended
      · exact hl rfl
      · cases strand' with
        | ended ending => cases hable
        | _ => cases hended
  have hunseen : s.world.Unseen n stopAt s.plan.recorder id (s.world.seen stopAt id) :=
    ⟨h.calm hflag, rfl⟩
  have hstands : strand'.Stands (World.Unseen n stopAt s.plan.recorder id (s.world.seen stopAt id))
      (fun _ => World.Unseen n stopAt s.plan.recorder id (s.world.seen stopAt id))
      (fun _ => World.Unseen n stopAt s.plan.recorder id (s.world.seen stopAt id)) s.world := by
    cases strand' <;> first | exact hunseen | trivial
  obtain ⟨_, -, -, hleaves⟩ := takeTurn_keeps hi able (World.keeps_unseen h.aloof hcalls)
    (h.opened.calls _ hmem) hstands
  exact hleaves.shared (fun _ h => h) (fun _ _ h => h) (fun _ _ h => h)
    fun w r h => ⟨h.1.finish l' r, (World.finish_seen w l' r).trans h.2⟩

/-- A run that has begun or is about to still does so after a turn of another task. -/
theorem begun_takeTurn (h : s.Secludes n place id stopAt Q)
    (able : s.pool.isAble s.host i = true) :
    (s.takeTurn i).world.Begun n ∨ ∃ calls run, (s.takeTurn i).Dormant calls n run := by
  obtain ⟨l, strand, hi, hable, hworld, -⟩ := takeTurn_spec able
  rcases h.begun with hbegun | ⟨calls, run, hdormant⟩
  · left
    rw [hworld]
    exact Host.resume_keeps (h := s.host) (P := World.Begun n) (fun _ c hw => hw.announce l c)
      (fun _ c hw => hw.accept s.plan.service l c) (fun _ c hw => hw.answer s.plan.service l c)
      (fun _ r hw => hw.finish l r) hable hbegun
  · by_cases hl : l.run = n
    · left
      obtain ⟨rfl, rfl⟩ := Prod.mk.inj (hdormant.lead_of_isAble hi hable hl)
      obtain ⟨size, hcrew⟩ := hdormant.crew
      rw [hworld]
      exact World.begun_lead s.plan.service run hcrew
    · exact .inr ⟨_, run, hdormant.aside hi able hl⟩

/-- A turn keeps the tour to itself. -/
theorem takeTurn (h : s.Secludes n place id stopAt Q) (able : s.pool.isAble s.host i = true)
    (hflag : s.world.isStopped n = stopAt.any (· ≤ s.now)) :
    (s.takeTurn i).Secludes n place id stopAt Q := by
  obtain ⟨l, strand, hi, -, -, hstrands, -⟩ := takeTurn_spec able
  by_cases hl : l = .tour n place id
  · subst hl
    exact h.takeTurn_self able hflag hi
  · obtain ⟨-, hseen⟩ := h.unseen_takeTurn able hflag hi hl
    obtain ⟨mine, hmem, hintime, hcomes⟩ := h.tour
    have hnow : (s.takeTurn i).now = s.now := congrArg Moment.now hseen
    constructor
    case opened => exact h.opened.next (.turn able)
    case swift => exact h.swift
    case aloof => exact h.aloof
    case awaits => exact .inl (h.flagged_takeTurn able hflag)
    case lead => exact h.lead_takeTurn able
    case begun => exact h.begun_takeTurn able
    case alone => exact h.alone_takeTurn able
    case tour =>
      refine ⟨mine, ?_, hnow ▸ hintime, fun r hr => hcomes r (hseen ▸ hr)⟩
      obtain ⟨j, hj⟩ := List.getElem?_of_mem hmem
      have hne : i ≠ j := by
        rintro rfl
        exact hl (congrArg Prod.fst (Option.some.inj (hi.symm.trans hj)))
      rw [hstrands]
      exact List.mem_of_getElem? ((List.getElem?_set_ne hne).trans hj)

end Turns

/-! ## Time -/

/-- A tour that waits for its run to begin is able to, or else the lead is. -/
theorem begun_of_isStill (h : s.Secludes n place id stopAt Q) (hstill : s.IsStill) :
    s.world.Begun n := by
  rcases h.begun with hbegun | ⟨calls, run, hdormant⟩
  · exact hbegun
  · obtain ⟨⟨_, strand⟩, hmem, rfl⟩ := List.mem_map.1 h.lead
    have hunable := hstill _ hmem
    rcases hdormant.strands _ hmem rfl with hlead | ⟨next, hwaiting⟩
    · obtain rfl := (Prod.mk.inj hlead).2
      cases hunable
    · obtain rfl : strand = .waiting .begun next := hwaiting
      exact absurd rfl (h.opened.calls _ hmem).1.2.2

/-- Until time passes, the flag of the run is what it should be. -/
theorem isStopped_of_later (h : s.Secludes n place id stopAt Q) {time : Nat} (hlt : s.now < time)
    (hstop : s.world.isStopped n = false → ∀ t ∈ stopAt, time ≤ t) :
    s.world.isStopped n = stopAt.any (· ≤ s.now) := by
  rcases h.awaits with hflagged | ⟨rfl, state, hstate, hflag⟩
  · exact hflagged.isStopped
  · have hopen : s.world.isStopped n = false := by simp [World.isStopped, hstate, hflag]
    exact absurd (hstop hopen _ rfl) (Nat.not_le.2 hlt)

/-- Time passes for the tour as it would on its own. -/
theorem clock (h : s.Secludes n place id stopAt Q) {time : Nat}
    (ht : s.Timely n stopAt (.clock time)) :
    (s.change fun w => { w with now := time }).Secludes n place id stopAt Q := by
  obtain ⟨hstill, hnow, hdue, hstop⟩ := ht
  obtain ⟨mine, hmem, hintime, hcomes⟩ := h.tour
  constructor
  case opened => exact h.opened.next (.clock time)
  case swift => exact h.swift
  case aloof => exact h.aloof
  case awaits => exact h.awaits.later hnow hstop
  case lead => exact h.lead
  case begun =>
    exact h.begun.imp (fun hbegun => hbegun)
      fun ⟨calls, run, hd⟩ => ⟨calls, run, hd.crew, hd.calls, hd.strands⟩
  case alone => exact h.alone
  case tour =>
    refine ⟨mine, hmem, hintime.later (hdue _ hmem), fun r hr => hcomes r ?_⟩
    rcases Nat.eq_or_lt_of_le hnow with rfl | hlt
    · exact hr
    · have hread := h.isStopped_of_later hlt hstop
      have hunable := hstill _ hmem
      have hseen : (s.world.seen stopAt id).isStopped = s.world.isStopped n := hread.symm
      refine Strand.comesTo_of_later hnow (hdue _ hmem) ?_ ?_ ?_ (fun hopen => hstop (hseen ▸ hopen))
        hr
      · rintro task rfl
        cases hunable
      · rintro c next rfl
        obtain rfl : c = .begun := hintime.1
        obtain ⟨crew, hcrew, hbegun⟩ := h.begun_of_isStill hstill
        have hcrew : s.world.crew? (Role.tour n place id).run = some crew := hcrew
        simp [Host.isAble, host, World.host, World.admits, hcrew, hbegun] at hunable
      · rintro due next rfl
        obtain ⟨hopen, -⟩ := Bool.or_eq_false_iff.1 hunable
        exact hseen.trans hopen

/-! ## All else -/

/-- What happens beside the tour leaves it to itself: tasks of other runs and devices are added, and
the tour sees what it has seen. -/
theorem beside (h : s.Secludes n place id stopAt Q)
    {more : List (Role × Strand RunCall.Reply RoleResult)} (ho : s'.Opened) (hplan : s'.plan = s.plan)
    (hawaits : s'.world.Awaits n stopAt) (hseen : s'.world.seen stopAt id = s.world.seen stopAt id)
    (hcrew : ∀ crew, s.world.crew? n = some crew → s'.world.crew? n = some crew)
    (hstrands : s'.pool.strands = s.pool.strands ++ more)
    (hmore : ∀ e ∈ more, e.1.run ≠ n ∧ ∀ m p, e.1 ≠ .tour m p id) :
    s'.Secludes n place id stopAt Q := by
  obtain ⟨mine, hmem, hintime, hcomes⟩ := h.tour
  have hnow : s'.now = s.now := congrArg Moment.now hseen
  constructor
  case opened => exact ho
  case swift => exact hplan ▸ h.swift
  case aloof => exact hplan ▸ h.aloof
  case awaits => exact hawaits
  case lead =>
    rw [hstrands, List.map_append]
    exact List.mem_append_left _ h.lead
  case begun =>
    rcases h.begun with ⟨crew, hfound, hbegun⟩ | ⟨calls, run, ⟨size, hfound⟩, hcalls, hstart⟩
    · exact .inl ⟨crew, hcrew crew hfound, hbegun⟩
    · refine .inr ⟨calls, run, ⟨size, hcrew _ hfound⟩, hcalls, fun e he hrun => ?_⟩
      rcases List.mem_append.1 (hstrands ▸ he) with hold | hnew
      · exact hstart e hold hrun
      · exact absurd hrun (hmore e hnew).1
  case alone =>
    intro m p strand he
    rcases List.mem_append.1 (hstrands ▸ he) with hold | hnew
    · exact h.alone m p strand hold
    · exact absurd rfl ((hmore _ hnew).2 m p)
  case tour =>
    refine ⟨mine, hstrands ▸ List.mem_append_left _ hmem, hnow ▸ hintime, fun r hr => hcomes r ?_⟩
    rw [hplan, hseen] at hr
    exact hr

/-- A run that begins without the device leaves the tour to itself. -/
theorem launch (h : s.Secludes n place id stopAt Q) {request : Request} {scenarios : List Graph}
    (suiteId suiteName : String) (hcheck : s.check request = .ok scenarios)
    (hspares : id ∉ request.deviceIds) :
    (s.launch suiteId suiteName request scenarios).1.Secludes n place id stopAt Q := by
  have ho := h.opened.next (.launch suiteId suiteName hcheck)
  have hn := h.opened.numbered
  have hlt : n < s.world.registry.runs.length := hn.runs _ h.lead
  have hnow : (s.launch suiteId suiteName request scenarios).1.world.now = s.world.now :=
    s.now_launch suiteId suiteName request scenarios
  have hawaits : (s.launch suiteId suiteName request scenarios).1.world.Awaits n stopAt := by
    simpa only [World.Awaits, World.Flagged, run?_launch_of_lt _ _ _ _ _ hlt, hnow] using h.awaits
  refine h.beside ho rfl hawaits ?_ ?_ (s.strands_launch _ _ _ _) ?_
  · rw [world_launch]
    rfl
  · intro crew hcrew
    exact (s.crew?_launch_of_lt _ _ _ _ (hn.crews ▸ hlt)).trans hcrew
  · intro e he
    refine ⟨newStrands_run scenarios he ▸ Nat.ne_of_gt hlt, ?_⟩
    obtain rfl | ⟨p', id', hid', rfl⟩ := mem_newStrands scenarios he
    · rintro m p ⟨⟩
    · rintro m p ⟨⟩
      exact hspares (List.mem_of_getElem? hid')

/-- A timely move leaves the tour to itself, unless it begins a run with its device. -/
theorem perform (h : s.Secludes n place id stopAt Q) (allowed : s.allows m = true)
    (ht : s.Timely n stopAt m) (hspares : m.Spares id) :
    (s.perform m).Secludes n place id stopAt Q := by
  have ho := h.opened.perform allowed
  have haside : (s.perform m).pool.strands = s.pool.strands →
      (s.perform m).plan = s.plan → (s.perform m).world.Awaits n stopAt →
      (s.perform m).world.seen stopAt id = s.world.seen stopAt id →
      (s.perform m).world.crews = s.world.crews → (s.perform m).Secludes n place id stopAt Q := by
    intro hstrands hplan hawaits hseen hcrews
    have hnone : (s.perform m).pool.strands = s.pool.strands ++ [] := by
      rw [hstrands, List.append_nil]
    refine h.beside ho hplan hawaits hseen (fun crew hcrew => ?_) hnone
      fun e he => absurd he List.not_mem_nil
    rw [World.crew?, hcrews]
    exact hcrew
  cases m with
  | turn i => exact h.takeTurn allowed ht
  | clock time => exact h.clock ht
  | stop runId => exact haside rfl rfl (awaits_stop h.awaits ht) rfl rfl
  | stopRun m => exact haside rfl rfl (awaits_stopRun h.awaits ht) rfl rfl
  | launch suiteId suiteName request =>
    obtain ⟨scenarios, hcheck, hperform⟩ := launch_of_allows allowed
    rw [hperform]
    exact h.launch suiteId suiteName hcheck hspares
  | release number => exact haside rfl rfl h.awaits rfl rfl
  | insertScenario g => exact haside rfl rfl h.awaits rfl rfl
  | removeScenario id => exact haside rfl rfl h.awaits rfl rfl
  | disconnect id => exact haside rfl rfl h.awaits rfl rfl

/-- Moves that respect the device leave its tour to itself. -/
theorem performs {moves : List Move} (h : s.Secludes n place id stopAt Q)
    (hm : s.Respects n id stopAt moves) : (s.performs moves).Secludes n place id stopAt Q := by
  induction moves generalizing s with
  | nil => exact h
  | cons m rest ih =>
    obtain ⟨hallowed, htimely, hspared⟩ := hm
    obtain ⟨hm, hrest⟩ := Bool.and_eq_true_iff.1 hallowed
    obtain ⟨htm, htrest⟩ := htimely
    obtain ⟨hsm, hsrest⟩ := List.forall_mem_cons.1 hspared
    exact ih (h.perform hm htm hsm) ⟨hrest, htrest, hsrest⟩

/-- When the tour has ended, something has come of it that was expected. -/
theorem ended (h : s.Secludes n place id stopAt Q) {ending : Option RoleResult}
    (hended : (.tour n place id, .ended ending) ∈ s.pool.strands) : Q ending := by
  obtain ⟨mine, hmem, -, hcomes⟩ := h.tour
  obtain rfl := h.opened.numbered.strand_inj hmem hended
  exact hcomes ending rfl

end Secludes

end Session

end DeviceSuite
