import DeviceSuite.Device.Scripted
import DeviceSuite.Proofs.Run.Helpers
import DeviceSuite.Proofs.Run.Pictures
import DeviceSuite.Proofs.Session.Course
import DeviceSuite.Proofs.Session.Names
import DeviceSuite.Proofs.Session.Recordings
import DeviceSuite.Proofs.Session.Siblings

/-!
# Helpers change nothing

Two sessions that differ only in their helpers make the same moves: what one allows, the other
does, and it makes of it the same runs but for names, pictures and videos. The helpers are the sink
for pictures, the cameras of the devices, the video recorder, the archive, and the wish to take
pictures at all; they may be missing, fail or do their part, as long as they take no time.
-/

namespace DeviceSuite

variable {σ σ' : Type}

/-- The helpers of a plan take no time. -/
structure SessionPlan.Prompt (plan : SessionPlan σ) : Prop extends plan.Swift where
  archive : ∀ result, plan.archive.delay result = 0

/-- Two plans that differ only in their helpers and in the names of the runs. -/
structure SessionPlan.Sibling (same : σ → σ' → Prop) (plan : SessionPlan σ)
    (plan' : SessionPlan σ') : Prop where
  service : Service.Sibling same plan.service plan'.service
  devices : List.Forall₂ (fun d d' => d.1 = d'.1 ∧ same d.2 d'.2) plan.devices plan'.devices
  scenarios : plan.scenarios = plan'.scenarios
  names : Registry.Matching plan.runId plan'.runId
  prompt : plan.Prompt
  prompt' : plan'.Prompt

/-- The same move in two sessions that may have other names for their runs. -/
inductive Move.Sibling (ids ids' : Nat → String) : Move → Move → Prop where
  | same {m : Move} (h : ∀ runId, m ≠ .stop runId) : Sibling ids ids' m m
  | stop (number : Nat) : Sibling ids ids' (.stop (ids number)) (.stop (ids' number))
  | stopUnknown {runId runId' : String} (h : ∀ n, ids n ≠ runId) (h' : ∀ n, ids' n ≠ runId') :
    Sibling ids ids' (.stop runId) (.stop runId')

/-- Whether a minute is of what is done to a device, pictures apart. -/
def Minute.isDeed (m : Minute RunCall.Reply Role) : Bool :=
  match m.call with
  | .device c => c != .screenshot
  | _ => false

/-- A result of a run all of whose slots have at most one picture, of a last step that failed. -/
def SuiteResult.Illustrated (r : SuiteResult) : Prop := ∀ d ∈ r.deviceResults, d.Illustrated

/-- Whether a task has a device to visit. -/
def Role.Visits : Role → Prop
  | lead _ => False
  | tour _ _ _ => True

namespace Session

variable {same : σ → σ' → Prop} {known : List String} {s : Session σ} {s' : Session σ'}

/-- Two strands of one task, in sibling sessions. -/
def Matched (e e' : Role × Strand RunCall.Reply RoleResult) : Prop :=
  e.1 = e'.1 ∧ e.2.Twin (RunCall.pairing e.1.Visits) (fun x y => x.bare = y.bare) e'.2

/-- Two sessions that nothing but their helpers tells apart. -/
structure Sibling (same : σ → σ' → Prop) (known : List String) (s : Session σ) (s' : Session σ') :
    Prop where
  service : Service.Sibling same s.plan.service s'.plan.service
  names : Registry.Matching s.plan.runId s'.plan.runId
  world : s.world.Sibling s.plan.runId s'.plan.runId known same s'.world
  strands : List.Forall₂ Matched s.pool.strands s'.pool.strands
  visited : ∀ e ∈ s.pool.strands, e.1.Visits → World.deviceOf e.1 ∈ known
  scenarios : s.scenarios = s'.scenarios
  connected : s.connected = s'.connected
  around : ∀ id ∈ s.connected, id ∈ known
  settings : s.settings.Agrees s'.settings

/-! ## Setting up -/

/-- A prompt plan sets up a prompt world. -/
theorem prompt_setUp {plan : SessionPlan σ} {source : SettingsSource} {s : Session σ}
    (h : setUp plan source = .ok s) (hplan : plan.Prompt) : s.world.Prompt := by
  obtain ⟨hswift, hdeserted⟩ := smooth_setUp h hplan.toSwift
  obtain ⟨-, -, -, -, -, harchive⟩ := setUp_eq h
  refine ⟨⟨plan.recorder, hswift⟩, hdeserted, fun result => ?_⟩
  rw [harchive]
  exact hplan.archive result

/-- Sessions that are set up with sibling plans are siblings. -/
theorem sibling_setUp {plan : SessionPlan σ} {plan' : SessionPlan σ'} {source source' : SettingsSource}
    (hplans : plan.Sibling same plan') (h : setUp plan source = .ok s)
    (h' : setUp plan' source' = .ok s') (hsettings : s.settings.Agrees s'.settings) :
    s.Sibling same (plan.devices.map (·.1)) s' := by
  obtain ⟨hplan, hstrands, hregistry, hcrews, -⟩ := setUp_blank h
  obtain ⟨hplan', hstrands', hregistry', hcrews', -⟩ := setUp_blank h'
  obtain ⟨hscenarios, hconnected, hnow, hdevices, -⟩ := setUp_eq h
  obtain ⟨hscenarios', hconnected', hnow', hdevices', -⟩ := setUp_eq h'
  have hids : plan.devices.map (·.1) = plan'.devices.map (·.1) := by
    have heq := List.forall₂_map_left_iff.2 (List.forall₂_map_right_iff.2
      (hplans.devices.imp fun _ _ hd => hd.1))
    rwa [List.forall₂_eq_eq_eq] at heq
  constructor
  case service => rw [hplan, hplan']; exact hplans.service
  case names => rw [hplan, hplan']; exact hplans.names
  case world =>
    rw [hplan, hplan']
    refine ⟨hnow.trans hnow'.symm, ?_, by rw [hcrews, hcrews'], ?_, prompt_setUp h hplans.prompt,
      prompt_setUp h' hplans.prompt'⟩
    · rw [hregistry, hregistry']
      exact ⟨rfl, fun n _ hn => (by cases hn), fun n _ hn => (by cases hn), [], rfl, rfl⟩
    · rw [hdevices, hdevices']
      exact .ofList hplans.devices
  case strands => rw [hstrands, hstrands']; exact .nil
  case visited => simp [hstrands]
  case scenarios => rw [hscenarios, hscenarios', hplans.scenarios]
  case connected => rw [hconnected, hconnected', hids]
  case around => rw [hconnected]; exact fun _ hid => hid
  case settings => exact hsettings

/-! ## Moves -/

/-- Lists that correspond still do when entries that correspond are put at one position. -/
theorem forall₂_set {α β : Type} {r : α → β → Prop} {xs : List α} {ys : List β}
    (h : List.Forall₂ r xs ys) {x : α} {y : β} (hxy : r x y) (i : Nat) :
    List.Forall₂ r (xs.set i x) (ys.set i y) := by
  induction h generalizing i with
  | nil => exact .nil
  | cons hhead htail ih =>
    cases i with
    | zero => exact .cons hxy htail
    | succ i => exact .cons hhead (ih i)

/-- The devices of a request that is accepted are connected. -/
theorem connected_of_check {s : Session σ} {request : Request} {scenarios : List Graph}
    (h : s.check request = .ok scenarios) : ∀ id ∈ request.deviceIds, id ∈ s.connected := by
  have hall : ∀ {ids : List String},
      ids.forM s.checkDevice = .ok () → ∀ id ∈ ids, id ∈ s.connected := by
    intro ids
    induction ids with
    | nil => exact fun _ _ hid => absurd hid List.not_mem_nil
    | cons id rest ih =>
      intro hok id' hid'
      rw [List.forM] at hok
      by_cases hmem : id ∈ s.connected
      · simp only [checkDevice, hmem, ↓reduceIte, bind, Except.bind] at hok
        rcases List.mem_cons.1 hid' with rfl | hrest
        · exact hmem
        · exact ih hok id' hrest
      · simp [checkDevice, hmem, bind, Except.bind] at hok
  simp only [check, bind, Except.bind, throw, throwThe, MonadExceptOf.throw] at h
  split at h
  · cases h
  · split at h
    · cases h
    · split at h
      · cases h
      · split at h
        · cases h
        · next hok => exact hall hok

namespace Sibling

/-- Siblings check requests alike. -/
theorem check (h : s.Sibling same known s') (request : Request) :
    s.check request = s'.check request := by
  have hdevice : s.checkDevice = s'.checkDevice := by
    funext id
    rw [checkDevice, checkDevice, h.connected]
  have hfetch : s.fetchScenario = s'.fetchScenario := by
    funext id
    rw [fetchScenario, fetchScenario, h.scenarios]
  rw [Session.check, Session.check, hdevice, hfetch]

/-- A task stands in both sessions where its twin does. -/
theorem strand? (h : s.Sibling same known s') {i : Nat} {l : Role}
    {strand : Strand RunCall.Reply RoleResult} (hi : s.pool.strands[i]? = some (l, strand)) :
    ∃ strand', s'.pool.strands[i]? = some (l, strand') ∧
      strand.Twin (RunCall.pairing l.Visits) (fun x y => x.bare = y.bare) strand' := by
  obtain ⟨hlt, hget⟩ := List.getElem?_eq_some_iff.1 hi
  have hlt' : i < s'.pool.strands.length := h.strands.length_eq ▸ hlt
  obtain ⟨hlabel, htwin⟩ : Matched s.pool.strands[i] s'.pool.strands[i] := h.strands.get hlt hlt'
  rw [hget] at hlabel htwin
  exact ⟨s'.pool.strands[i].2, List.getElem?_eq_some_iff.2 ⟨hlt', Prod.ext hlabel.symm rfl⟩, htwin⟩

/-- The hosts of siblings keep abreast, but for the helpers. -/
theorem abreast (h : s.Sibling same known s') {l : Role} (hl : l.Visits → World.deviceOf l ∈ known) :
    s.host.Abreast s'.host l (RunCall.pairing l.Visits) (fun x y => x.bare = y.bare)
      (World.Sibling s.plan.runId s'.plan.runId known same) :=
  World.Sibling.abreast h.names h.service hl

/-- A task of a sibling visits devices that both know. -/
theorem visits (h : s.Sibling same known s') {i : Nat} {l : Role}
    {strand : Strand RunCall.Reply RoleResult} (hi : s.pool.strands[i]? = some (l, strand)) :
    l.Visits → World.deviceOf l ∈ known :=
  h.visited _ (List.mem_of_getElem? hi)

/-- Strands are able to go on in both sessions or in none. -/
theorem isAble (h : s.Sibling same known s') (i : Nat) :
    s.pool.isAble s.host i = s'.pool.isAble s'.host i := by
  rw [Pool.isAble, Pool.isAble]
  cases hi : s.pool.strands[i]? with
  | none =>
    have hlen := h.strands.length_eq ▸ List.getElem?_eq_none_iff.1 hi
    rw [List.getElem?_eq_none hlen]
    rfl
  | some e =>
    obtain ⟨l, strand⟩ := e
    obtain ⟨strand', hi', htwin⟩ := h.strand? hi
    rw [hi']
    exact (h.abreast (h.visits hi)).isAble htwin h.world

/-- What is done to devices is noted alike. -/
theorem notes (h : s.Sibling same known s') {l : Role} (hl : l.Visits → World.deviceOf l ∈ known) :
    s.host.minuted.Abreast s'.host.minuted l (RunCall.pairing l.Visits)
      (fun x y => x.bare = y.bare) fun x y =>
        World.Sibling s.plan.runId s'.plan.runId known same x.1 y.1 ∧
          x.2.filter Minute.isDeed = y.2.filter Minute.isDeed := by
  refine (h.abreast hl).minuted Minute.isDeed ?_ ?_ ?_
  · intro c c' hc
    cases hc <;> rfl
  · intro c c' r r' hc hr
    cases hc with
    | device hv hne =>
      cases hr with
      | none => rfl
      | some hr => rw [eq_of_heq hr]
    | _ => rfl
  · intro c hc
    cases c with
    | device c =>
      obtain ⟨-, rfl⟩ := hc
      exact ⟨rfl, fun _ => rfl⟩
    | _ => exact ⟨rfl, fun _ => rfl⟩

/-- When a strand of one sibling takes its turn, that of the other may, and both do the same to the
devices. -/
theorem takeTurn (h : s.Sibling same known s') {i : Nat} (able : s.pool.isAble s.host i = true) :
    (s.takeTurn i).Sibling same known (s'.takeTurn i) ∧
      (s.minutesOf (.turn i)).filter Minute.isDeed =
        (s'.minutesOf (.turn i)).filter Minute.isDeed := by
  obtain ⟨l, strand, hi, -, hworld, hstrands, -⟩ := takeTurn_spec able
  obtain ⟨l', strand', hi', -, hworld', hstrands', -⟩ := takeTurn_spec (h.isAble i ▸ able)
  obtain ⟨_, hfound, htwin⟩ := h.strand? hi
  obtain ⟨rfl, rfl⟩ := Prod.mk.inj (Option.some.inj (hfound.symm.trans hi'))
  obtain ⟨⟨hsibling, hnext⟩, hminutes⟩ := (h.notes (h.visits hi)).minutesOf htwin h.world
  rw [minutesOf_turn hi, minutesOf_turn hi']
  refine ⟨⟨h.service, h.names, ?_, ?_, ?_, h.scenarios, h.connected, h.around, h.settings⟩, hminutes⟩
  · rw [hworld, hworld']
    exact hsibling
  · rw [hstrands, hstrands']
    have hmatched : Matched (l, (s.host.resume l strand s.world).2)
        (l, (s'.host.resume l _ s'.world).2) := ⟨rfl, hnext⟩
    exact forall₂_set h.strands hmatched i
  · intro e he
    rw [hstrands] at he
    rcases List.mem_or_eq_of_mem_set he with hold | rfl
    · exact h.visited e hold
    · exact h.visits hi

/-- The tasks of a run that begins are twins. -/
theorem newStrands (h : s.Sibling same known s') (suiteId suiteName : String) (request : Request)
    (scenarios : List Graph) :
    List.Forall₂ Matched (s.newStrands (s.newRun suiteId suiteName request) scenarios)
      (s'.newStrands (s'.newRun suiteId suiteName request) scenarios) := by
  have hnumber := h.world.registry.length
  have hrun : s'.newRun suiteId suiteName request = (s.newRun suiteId suiteName request).named
      (s'.plan.runId s'.world.registry.runs.length) := by
    have hnow : s.now = s'.now := h.world.now
    simp only [newRun, RunState.new, RunState.named, hnumber, hnow]
  rw [Session.newStrands, Session.newStrands, hrun, ← hnumber]
  refine .cons ⟨rfl, .ready ?_⟩ ?_
  · exact (RunTask.twin_lead _ _).bind fun r r' hr => .done (congrArg RoleResult.lead hr)
  · refine List.forall₂_map_left_iff.2 (List.forall₂_map_right_iff.2 (List.forall₂_same.2 ?_))
    rintro ⟨id, place⟩ -
    refine ⟨rfl, .waiting .begun fun reply reply' _ => ?_⟩
    have hagrees : Tour.Agrees
        ⟨s.settings, s.world.desk.isSome, s.newRun suiteId suiteName request, scenarios, id,
          place + 1⟩
        ⟨s'.settings, s'.world.desk.isSome, (s.newRun suiteId suiteName request).named
          (s'.plan.runId s.world.registry.runs.length), scenarios, id, place + 1⟩ :=
      ⟨h.settings, rfl, rfl, rfl⟩
    exact (Tour.twin_conduct hagrees).bind fun r r' hr => .done (congrArg RoleResult.tour hr)

/-- A run that is launched in siblings leaves them so. -/
theorem launch (h : s.Sibling same known s') (suiteId suiteName : String) {request : Request}
    {scenarios : List Graph} (accepted : s.check request = .ok scenarios) :
    (s.launch suiteId suiteName request scenarios).1.Sibling same known
      (s'.launch suiteId suiteName request scenarios).1 := by
  have hnumber := h.world.registry.length
  have hnow : s.now = s'.now := h.world.now
  refine ⟨h.service, h.names, ?_, ?_, ?_, h.scenarios, h.connected, h.around, h.settings⟩
  · rw [world_launch, world_launch, ← hnumber]
    refine ⟨h.world.now, h.world.registry.launch h.names ?_ rfl ?_, ?_, h.world.devices,
      h.world.prompt.congr rfl rfl rfl, h.world.prompt'.congr rfl rfl rfl⟩
    · simp only [newRun, RunState.new, RunState.named, hnumber, hnow]
    · simp only [newRun, RunState.new, hnumber]
    · rw [List.map_append, List.map_append, h.world.crews]
  · rw [strands_launch, strands_launch]
    exact List.rel_append h.strands (h.newStrands suiteId suiteName request scenarios)
  · intro e he
    rw [strands_launch] at he
    rcases List.mem_append.1 he with hold | hnew
    · exact h.visited e hold
    · obtain rfl | ⟨place, id, hid, rfl⟩ := mem_newStrands _ hnew
      · exact False.elim
      · exact fun _ => h.around id (connected_of_check accepted id (List.mem_of_getElem? hid))

/-- A move that changes neither the tasks nor what they need. -/
theorem aside (h : s.Sibling same known s') {w : World σ} {w' : World σ'}
    (hw : w.Sibling s.plan.runId s'.plan.runId known same w') :
    (s.change fun _ => w).Sibling same known (s'.change fun _ => w') :=
  ⟨h.service, h.names, hw, h.strands, h.visited, h.scenarios, h.connected, h.around, h.settings⟩

/-- A move that one session allows, the other allows as well, with the same deeds. -/
theorem perform (h : s.Sibling same known s') {m m' : Move}
    (hm : Move.Sibling s.plan.runId s'.plan.runId m m') (allowed : s.allows m = true) :
    s'.allows m' = true ∧ (s.perform m).Sibling same known (s'.perform m') ∧
      (s.minutesOf m).filter Minute.isDeed = (s'.minutesOf m').filter Minute.isDeed := by
  cases hm with
  | stop number =>
    exact ⟨rfl, h.aside (h.world.withRegistry (h.world.registry.stop h.names number)), rfl⟩
  | @stopUnknown runId runId' hid hid' =>
    obtain ⟨hnone, hnone'⟩ := h.world.registry.find?_unknown hid hid'
    have hstop : (s.world.registry.stop runId).Sibling s.plan.runId s'.plan.runId
        (s'.world.registry.stop runId') := by
      rw [Registry.stop, Registry.stop, hnone, hnone']
      exact h.world.registry
    exact ⟨rfl, h.aside (h.world.withRegistry hstop), rfl⟩
  | same hne =>
    cases m with
    | stop runId => exact absurd rfl (hne runId)
    | turn i => exact ⟨(h.isAble i).symm.trans allowed, h.takeTurn allowed⟩
    | launch suiteId suiteName request =>
      obtain ⟨scenarios, hcheck, hperform⟩ := launch_of_allows allowed
      have hcheck' : s'.check request = .ok scenarios := h.check request ▸ hcheck
      refine ⟨?_, ?_, rfl⟩
      · rw [allows, ← h.check]
        exact allowed
      · rw [hperform, Session.perform, hcheck']
        exact h.launch suiteId suiteName hcheck
    | clock time =>
      exact ⟨rfl, h.aside ⟨rfl, h.world.registry, h.world.crews, h.world.devices,
        h.world.prompt.congr rfl rfl rfl, h.world.prompt'.congr rfl rfl rfl⟩, rfl⟩
    | stopRun number =>
      have hstop := h.world.registry.update number RunState.nameless_requestStop
      exact ⟨rfl, h.aside (h.world.withRegistry hstop), rfl⟩
    | release number =>
      exact ⟨rfl, ⟨h.service, h.names, h.world, h.strands, h.visited, h.scenarios, h.connected,
        h.around, h.settings⟩, rfl⟩
    | insertScenario g =>
      refine ⟨rfl, ⟨h.service, h.names, h.world, h.strands, h.visited, ?_, h.connected, h.around,
        h.settings⟩, rfl⟩
      simp only [Session.perform, Session.insertScenario, h.scenarios]
    | removeScenario id =>
      refine ⟨rfl, ⟨h.service, h.names, h.world, h.strands, h.visited, ?_, h.connected, h.around,
        h.settings⟩, rfl⟩
      simp only [Session.perform, Session.removeScenario, h.scenarios]
    | disconnect id =>
      refine ⟨rfl, ⟨h.service, h.names, h.world, h.strands, h.visited, h.scenarios, ?_, ?_,
        h.settings⟩, rfl⟩
      · simp only [Session.perform, Session.disconnect, h.connected]
      · exact fun id' hid => h.around id' (List.mem_filter.1 hid).1

/-- What one session allows, the other allows as well, with the same deeds all along. -/
theorem performs (h : s.Sibling same known s') {moves moves' : List Move}
    (hm : List.Forall₂ (Move.Sibling s.plan.runId s'.plan.runId) moves moves')
    (allowed : s.allowsAll moves = true) :
    s'.allowsAll moves' = true ∧ (s.performs moves).Sibling same known (s'.performs moves') ∧
      (s.minutesOfAll moves).filter Minute.isDeed =
        (s'.minutesOfAll moves').filter Minute.isDeed := by
  induction moves generalizing moves' s s' with
  | nil =>
    cases hm
    exact ⟨rfl, h, rfl⟩
  | cons m rest ih =>
    cases hm with
    | @cons _ m' _ rest' hfirst hothers =>
      obtain ⟨hallow, hrest⟩ := Bool.and_eq_true_iff.1 allowed
      obtain ⟨hallow', hnext, hdeeds⟩ := h.perform hfirst hallow
      rw [← plan_perform hallow, ← plan_perform hallow'] at hothers
      obtain ⟨hrest', hend, hmore⟩ := ih hnext hothers hrest
      refine ⟨Bool.and_eq_true_iff.2 ⟨hallow', hrest'⟩, hend, ?_⟩
      rw [minutesOfAll, minutesOfAll, List.filter_append, List.filter_append, hdeeds, hmore]

/-- The results of the runs are the same but for names, pictures and videos. -/
theorem result? (h : s.Sibling same known s') (n : Nat) :
    (s.result? n).map SuiteResult.bare = (s'.result? n).map SuiteResult.bare := by
  have hresult := h.world.map_crew? n Crew.result (g := Option.map SuiteResult.bare) fun crew => rfl
  rw [Session.result?, Session.result?]
  cases hcrew : s.world.crew? n <;> cases hcrew' : s'.world.crew? n <;>
    simp only [hcrew, hcrew', Option.map_some, Option.map_none, reduceCtorEq, Option.some.injEq,
      Option.bind_some, Option.bind_none] at hresult ⊢
  · exact hresult

end Sibling

/-- Every result has at most one picture of each slot, of a last step that failed. -/
theorem Opened.illustrated (ho : s.Opened) {n : Nat} {r : SuiteResult}
    (hr : s.result? n = some r) : r.Illustrated := by
  obtain ⟨crew, hcrew, -⟩ := Option.bind_eq_some_iff.1 hr
  have hlt : n < s.world.registry.runs.length :=
    ho.numbered.crews ▸ (List.getElem?_eq_some_iff.1 hcrew).1
  obtain ⟨calls, request, scenarios, hu⟩ := ho.underway hlt
  obtain ⟨c, rfl, rfl, -⟩ := Course.exists_of_underway hu
  exact c.forall_deviceResults (fun place id => (c.tour place id).only_illustrated_conduct) hr

/-- Helpers change nothing: of two sessions that differ only in what their helpers do, and in
whether they take pictures, each move that one allows the other allows as well; the devices are
called alike, pictures apart; and every run comes to the same result, but for its name, pictures and
videos. There is at most one picture of a slot, and only of a last step that failed. -/
theorem helpers_change_nothing {plan : SessionPlan σ} {plan' : SessionPlan σ'}
    {source source' : SettingsSource} (hplans : plan.Sibling same plan')
    (h : setUp plan source = .ok s) (h' : setUp plan' source' = .ok s')
    (hsettings : s'.settings =
      { s.settings with captureOnFailure := s'.settings.captureOnFailure })
    {moves moves' : List Move}
    (hmoves : List.Forall₂ (Move.Sibling plan.runId plan'.runId) moves moves')
    (allowed : s.allowsAll moves = true) :
    s'.allowsAll moves' = true ∧
      (s'.minutesOfAll moves').filter Minute.isDeed = (s.minutesOfAll moves).filter Minute.isDeed ∧
      (∀ n, ((s'.performs moves').result? n).map SuiteResult.bare =
        ((s.performs moves).result? n).map SuiteResult.bare) ∧
      (∀ n r, (s.performs moves).result? n = some r → r.Illustrated) ∧
      ∀ n r, (s'.performs moves').result? n = some r → r.Illustrated := by
  have hagrees : s.settings.Agrees s'.settings := by
    rw [hsettings]
    exact ⟨rfl, rfl, rfl⟩
  rw [← (setUp_blank h).1, ← (setUp_blank h').1] at hmoves
  obtain ⟨hallowed', hend, hdeeds⟩ := (sibling_setUp hplans h h' hagrees).performs hmoves allowed
  refine ⟨hallowed', hdeeds.symm, fun n => (hend.result? n).symm, fun n r hr => ?_,
    fun n r hr => ?_⟩
  · exact ((Opened.setUp h).performs allowed).illustrated hr
  · exact ((Opened.setUp h').performs hallowed').illustrated hr

end Session

namespace Sample

/-- A device that fails whatever it is told to do, with an answer to those who want a picture. -/
def clumsy (shot : Except DeviceError (List UInt8)) : Service DeviceCall.Reply Unit :=
  { service described with
    answer := fun time s c =>
      match c with
      | .perform _ => (s, some (.ok (.failed "slipped")))
      | .screenshot => (s, some shot)
      | c => (service described).answer time s c }

/-- A plan in which the helpers do their part. -/
def helped : SessionPlan Unit :=
  { plan described with
    service := clumsy (.ok ScriptedDevice.picture)
    devices := [("d", ())]
    scenarios := ⟨.ofList [("g", tap)], .empty⟩
    desk := some fun places => .new places (fun _ _ => 0) []
    recorder := .idle }

/-- The same plan with a camera that fails, no sink, a recorder that does not start, an archive
that loses everything, and another name for its runs. -/
def unhelped : SessionPlan Unit :=
  { helped with
    service := clumsy (.error (.fatal "no picture"))
    desk := none
    recorder := { Recorder.idle with starts := [.failed "busy"] }
    archive := ⟨.empty, true, fun _ => 0⟩
    runId := fun _ => "q" }

/-- A session with a plan of one device, before its first run. -/
def outset (plan : SessionPlan Unit) (settings : Settings) : Session Unit where
  plan := plan
  settings := settings
  scenarios := plan.scenarios
  connected := plan.devices.map (·.1)
  handles := []
  pool := .empty
    { (session described).world with
      devices := .ofList plan.devices
      desk := plan.desk.map fun make => make settings.artifactConcurrency.toNat
      recorder := plan.recorder
      archive := plan.archive }

/-- A clumsy device takes its pictures at once. -/
theorem pictures_clumsy (shot : Except DeviceError (List UInt8)) :
    (clumsy shot).Pictures fun _ => True :=
  fun _ _ _ => ⟨rfl, rfl, (), shot, rfl, trivial⟩

/-- The plan in which the helpers do their part and the one in which they do not are siblings. -/
theorem helped_sibling : helped.Sibling (fun _ _ => True) unhelped where
  service :=
    { accept := fun _ _ c _ => ⟨trivial, rfl, rfl⟩
      answer := fun _ _ c hc => ⟨trivial, by cases c <;> first | rfl | exact absurd rfl hc⟩
      pictures := fun _ => pictures_clumsy _
      pictures' := fun _ => pictures_clumsy _ }
  devices := .cons ⟨rfl, trivial⟩ .nil
  scenarios := rfl
  names _ _ := iff_of_true rfl rfl
  prompt :=
    { queue := by rintro _ ⟨⟩ places; rfl
      saves := by rintro _ ⟨⟩ places context artifact; rfl
      starts := fun _ => rfl
      stops := fun _ => rfl
      archive := fun _ => rfl }
  prompt' :=
    { queue := by rintro _ ⟨⟩
      saves := by rintro _ ⟨⟩
      starts := fun _ => rfl
      stops := fun _ => rfl
      archive := fun _ => rfl }

end Sample

/-- The numbers of pictures in the result of a run, slot by slot. -/
def SuiteResult.pictures (r : SuiteResult) : List (List Nat) :=
  r.deviceResults.map fun d => d.scenarioResults.map fun x => x.screenshots.length

/-- A run with a failure that is photographed, and the same run where nobody helps. -/
theorem Session.helpers_change_nothing_sample :
    let settings : Settings := { Settings.default with captureOnFailure := false }
    let s := Sample.outset Sample.helped .default
    let s' := Sample.outset Sample.unhelped settings
    let moves : List Move := [.launch "s" "" (Sample.filmed ["d"]), .turn 0, .turn 1, .turn 0]
    s.allowsAll moves = true ∧
      ((s.performs moves).result? 0).map SuiteResult.pictures = some [[1]] ∧
      ((s'.performs moves).result? 0).map SuiteResult.pictures = some [[0]] ∧
      ((s'.performs moves).result? 0).map SuiteResult.bare =
        ((s.performs moves).result? 0).map SuiteResult.bare := by
  intro settings s s' moves
  have hmoves : List.Forall₂ (Move.Sibling Sample.helped.runId Sample.unhelped.runId) moves moves :=
    List.forall₂_same.2 fun m hm => .same fun runId heq => by simp [moves, heq] at hm
  have hs : setUp Sample.helped (.given .default) = .ok s := rfl
  have hs' : setUp Sample.unhelped (.given settings) = .ok s' := rfl
  have hallowed : s.allowsAll moves = true := by decide +kernel
  have hall := helpers_change_nothing Sample.helped_sibling hs hs' rfl hmoves hallowed
  exact ⟨hallowed, by decide +kernel, by decide +kernel, hall.2.2.1 0⟩

end DeviceSuite
