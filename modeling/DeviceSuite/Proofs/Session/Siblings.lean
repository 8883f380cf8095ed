import DeviceSuite.Proofs.Run.Siblings
import DeviceSuite.Proofs.Session.Seclusion
import DeviceSuite.Proofs.Task.Abreast

/-!
# Sibling worlds

Two worlds are siblings when their helpers take no time and nothing but these helpers tells them
apart: the devices behave alike but for their pictures, the runs come along alike but for their
names. Twins that go on in sibling worlds leave them siblings: `World.Sibling.abreast`.
-/

namespace DeviceSuite

variable {σ σ' : Type}

/-- A device takes a picture at once, whether it succeeds or fails, and stops nothing by it; `kept`
is what this leaves as it is. -/
def Service.Pictures {σ : Type} (service : Service DeviceCall.Reply σ) (kept : σ → Prop) : Prop :=
  ∀ now state, kept state →
    let taken := service.accept now state .screenshot
    taken.latency = 0 ∧ taken.signals = [] ∧
      ∃ state' reply, service.answer now taken.state .screenshot = (state', some reply) ∧ kept state'

/-- Two services behave alike but for their pictures: what one does in a state, the other does in
every state that is the same as far as pictures do not matter. -/
structure Service.Sibling (same : σ → σ' → Prop) (service : Service DeviceCall.Reply σ)
    (service' : Service DeviceCall.Reply σ') : Prop where
  accept : ∀ {a b}, same a b → ∀ now c, c ≠ .screenshot →
    same (service.accept now a c).state (service'.accept now b c).state ∧
      (service.accept now a c).latency = (service'.accept now b c).latency ∧
      (service.accept now a c).signals = (service'.accept now b c).signals
  answer : ∀ {a b}, same a b → ∀ now c, c ≠ .screenshot →
    same (service.answer now a c).1 (service'.answer now b c).1 ∧
      (service.answer now a c).2 = (service'.answer now b c).2
  pictures : ∀ b, service.Pictures fun a => same a b
  pictures' : ∀ a, service'.Pictures fun b => same a b

/-- Services are siblings in either order. -/
theorem Service.Sibling.symm {same : σ → σ' → Prop} {service : Service DeviceCall.Reply σ}
    {service' : Service DeviceCall.Reply σ'} (h : Service.Sibling same service service') :
    Service.Sibling (fun b a => same a b) service' service := by
  refine ⟨fun hab now c hc => ?_, fun hab now c hc => ?_, h.pictures', h.pictures⟩
  · obtain ⟨hstate, hlatency, hsignals⟩ := h.accept hab now c hc
    exact ⟨hstate, hlatency.symm, hsignals.symm⟩
  · obtain ⟨hstate, hreply⟩ := h.answer hab now c hc
    exact ⟨hstate, hreply.symm⟩

/-- The known devices are in both maps, and are the same there. -/
def TextMap.Matches (known : List String) (same : σ → σ' → Prop) (m : TextMap σ)
    (m' : TextMap σ') : Prop :=
  ∀ id ∈ known, ∃ a b, m.get? id = some a ∧ m'.get? id = some b ∧ same a b

namespace TextMap.Matches

variable {known : List String} {same : σ → σ' → Prop} {m : TextMap σ} {m' : TextMap σ'}

/-- Maps that match still do when the same device is put into both. -/
theorem insert (h : m.Matches known same m') (id : String) {a : σ} {b : σ'} (hab : same a b) :
    (m.insert id a).Matches (id :: known) same (m'.insert id b) := by
  intro id' hid'
  simp only [get?_insert]
  by_cases heq : id' = id
  · exact ⟨a, b, by simp [heq], by simp [heq], hab⟩
  · simpa [heq] using h id' ((List.mem_cons.1 hid').resolve_left heq)

/-- Maps of devices that correspond match. -/
theorem ofList {entries : List (String × σ)} {entries' : List (String × σ')}
    (h : List.Forall₂ (fun e e' => e.1 = e'.1 ∧ same e.2 e'.2) entries entries') :
    (TextMap.ofList entries).Matches (entries.map (·.1)) same (TextMap.ofList entries') := by
  suffices hall : ∀ (known : List String) (m : TextMap σ) (m' : TextMap σ'),
      m.Matches known same m' →
      (entries.foldl (fun m e => m.insert e.1 e.2) m).Matches (known ++ entries.map (·.1)) same
        (entries'.foldl (fun m e => m.insert e.1 e.2) m') from
    hall [] .empty .empty fun _ hid => absurd hid List.not_mem_nil
  induction h with
  | nil => exact fun known m m' hm => (List.append_nil known).symm ▸ hm
  | @cons e e' rest rest' he _ ih =>
    intro known m m' hm id hid
    have hinsert : (m.insert e.1 e.2).Matches (e.1 :: known) same (m'.insert e'.1 e'.2) := by
      rw [← he.1]
      exact hm.insert e.1 he.2
    refine ih _ _ _ hinsert id ?_
    simp only [List.map_cons, List.mem_append, List.mem_cons] at hid ⊢
    tauto

end TextMap.Matches

namespace World

/-- The helpers of the runs take no time. -/
structure Prompt (w : World σ) : Prop where
  swift : ∃ recorder, w.Swift recorder
  deserted : w.Deserted
  archive : ∀ result, w.archive.delay result = 0

section Prompt

variable {w : World σ} {service : Service DeviceCall.Reply σ} {l : Role} {c : RunCall}

/-- Whether the helpers are prompt is for them to say. -/
theorem Prompt.congr {w' : World σ} (h : w.Prompt) (hdesk : w'.desk = w.desk)
    (hrecorder : w'.recorder = w.recorder) (harchive : w'.archive = w.archive) : w'.Prompt := by
  obtain ⟨recorder, hswift⟩ := h.swift
  refine ⟨⟨recorder, hdesk ▸ hswift.desk, hrecorder ▸ hswift.recorder⟩, fun q hq => ?_,
    harchive ▸ h.archive⟩
  exact h.deserted q (by rw [queue?, ← hdesk]; exact hq)

/-- To answer a call does not change how long the archive takes. -/
theorem answer_archive_delay (service : Service DeviceCall.Reply σ) (w : World σ) (l : Role)
    (c : RunCall) : (w.answer service l c).1.archive.delay = w.archive.delay := by
  have hanswers := w.answers service l c
  generalize (w.answer service l c).1 = w' at hanswers ⊢
  cases hanswers with
  | archive =>
    simp only [Archive.keep]
    split <;> rfl
  | _ => rfl

/-- Helpers stay prompt when a call is answered. -/
theorem Prompt.answer (h : w.Prompt) (service : Service DeviceCall.Reply σ) (l : Role)
    (c : RunCall) : (w.answer service l c).1.Prompt := by
  obtain ⟨recorder, hswift⟩ := h.swift
  refine ⟨⟨recorder, hswift.answer service l c⟩, h.deserted.answer service l c, fun result => ?_⟩
  rw [answer_archive_delay]
  exact h.archive result

/-- A call to a helper that is announced and answered at once leaves the helpers prompt. -/
theorem Prompt.answer_announce (h : w.Prompt) (service : Service DeviceCall.Reply σ) (l : Role)
    (c : RunCall) : ((w.announce l c).answer service l c).1.Prompt := by
  obtain ⟨recorder, hswift⟩ := h.swift
  refine ⟨⟨recorder, (hswift.announce l c).answer service l c⟩,
    h.deserted.answer_announce service l c, fun result => ?_⟩
  rw [answer_archive_delay]
  cases c <;> exact h.archive result

/-- Only calls to devices take time. -/
theorem Prompt.accept_eq (h : w.Prompt) (service : Service DeviceCall.Reply σ) (l : Role)
    (hc : c.isDevice = false) : w.accept service l c = (w, 0) := by
  obtain ⟨recorder, hswift⟩ := h.swift
  obtain ⟨ms, haccept, hms⟩ := hswift.accept_eq service l hc
  cases c with
  | archive result => exact congrArg (Prod.mk w) (h.archive result)
  | device c => cases hc
  | tours | retire => rfl
  | _ => rw [haccept, hms rfl]

end Prompt

/-- Two worlds that nothing but their helpers tells apart; the devices in `known` are those that
there are. -/
structure Sibling (ids ids' : Nat → String) (known : List String) (same : σ → σ' → Prop)
    (w : World σ) (w' : World σ') : Prop where
  now : w.now = w'.now
  registry : w.registry.Sibling ids ids' w'.registry
  crews : w.crews.map Crew.bare = w'.crews.map Crew.bare
  devices : w.devices.Matches known same w'.devices
  prompt : w.Prompt
  prompt' : w'.Prompt

namespace Sibling

variable {ids ids' : Nat → String} {known : List String} {same : σ → σ' → Prop}
  {service : Service DeviceCall.Reply σ} {service' : Service DeviceCall.Reply σ'}
  {w : World σ} {w' : World σ'} {l : Role} {c c' : RunCall} {visits : Prop}

/-- Worlds are siblings in either order. -/
theorem symm (h : w.Sibling ids ids' known same w') :
    w'.Sibling ids' ids known (fun b a => same a b) w := by
  refine ⟨h.now.symm, h.registry.symm, h.crews.symm, fun id hid => ?_, h.prompt', h.prompt⟩
  obtain ⟨a, b, ha, hb, hab⟩ := h.devices id hid
  exact ⟨b, a, hb, ha, hab⟩

/-- What does not depend on pictures is the same of the crews. -/
theorem map_crew? {β : Type} (h : w.Sibling ids ids' known same w') (n : Nat) (f : Crew → β)
    {g : β → β} (hf : ∀ crew : Crew, f crew.bare = g (f crew)) :
    ((w.crew? n).map f).map g = ((w'.crew? n).map f).map g := by
  have hcrews := congrArg (fun crews => (crews[n]?).map f) h.crews
  simpa [Function.comp_def, hf, crew?] using hcrews

/-- Siblings remain so when a crew of both changes to the same, but for pictures. -/
theorem updateCrew (h : w.Sibling ids ids' known same w') (n : Nat) {f f' : Crew → Crew}
    (g : Crew → Crew) (hf : ∀ crew, (f crew).bare = g crew.bare)
    (hf' : ∀ crew, (f' crew).bare = g crew.bare) :
    (w.updateCrew n f).Sibling ids ids' known same (w'.updateCrew n f') := by
  refine ⟨h.now, h.registry, ?_, h.devices, h.prompt.congr rfl rfl rfl,
    h.prompt'.congr rfl rfl rfl⟩
  simp only [World.updateCrew, map_modify_comm hf, map_modify_comm hf', h.crews]

/-- Siblings have the same flags. -/
theorem isStopped (h : w.Sibling ids ids' known same w') (n : Nat) :
    w.isStopped n = w'.isStopped n := by
  have hflag := h.registry.map_run? n RunState.stopRequested fun _ => rfl
  simp only [World.isStopped]
  cases hrun : w.registry.run? n <;> cases hrun' : w'.registry.run? n <;> simp_all

/-- A device comes to the same in both worlds. -/
theorem insertDevice (h : w.Sibling ids ids' known same w') (id : String) {a : σ} {b : σ'}
    (hab : same a b) :
    ({ w with devices := w.devices.insert id a } : World σ).Sibling ids ids' known same
      { w' with devices := w'.devices.insert id b } := by
  refine ⟨h.now, h.registry, h.crews, fun id' hid' => ?_, h.prompt.congr rfl rfl rfl,
    h.prompt'.congr rfl rfl rfl⟩
  exact h.devices.insert id hab id' (List.mem_cons_of_mem _ hid')

/-- What is done to the registries of both worlds alike does nothing else to them. -/
theorem withRegistry (h : w.Sibling ids ids' known same w') {registry registry' : Registry}
    (hregistry : registry.Sibling ids ids' registry') :
    ({ w with registry := registry } : World σ).Sibling ids ids' known same
      { w' with registry := registry' } :=
  ⟨h.now, hregistry, h.crews, h.devices, h.prompt.congr rfl rfl rfl, h.prompt'.congr rfl rfl rfl⟩

/-- A run is taken off the list in both worlds. -/
theorem retire (h : w.Sibling ids ids' known same w') (hids : Registry.Matching ids ids')
    (service : Service DeviceCall.Reply σ) (service' : Service DeviceCall.Reply σ') (l : Role) :
    (w.answer service l .retire).1.Sibling ids ids' known same (w'.answer service' l .retire).1 := by
  have hsome := h.registry.map_run? l.run (fun _ => ()) fun _ => rfl
  simp only [World.answer]
  cases hrun : w.registry.run? l.run <;> cases hrun' : w'.registry.run? l.run <;>
    simp only [hrun, hrun', Option.map_some, Option.map_none, reduceCtorEq] at hsome
  · exact h
  · next state state' =>
    have hremove : (w.registry.remove state.runId).Sibling ids ids'
        (w'.registry.remove state'.runId) := by
      rw [h.registry.named _ _ hrun, h.registry.named' _ _ hrun']
      exact h.registry.remove hids _
    exact h.withRegistry hremove

/-- A device that asks for a stop stops the same runs in both worlds. -/
theorem heed (h : w.Sibling ids ids' known same w') (hids : Registry.Matching ids ids')
    (signals : List Signal) :
    (signals.foldl World.heed w).Sibling ids ids' known same (signals.foldl World.heed w') := by
  induction signals generalizing w w' with
  | nil => exact h
  | cons signal rest ih =>
    refine ih ?_
    cases signal with
    | snapshot => exact ⟨h.now, h.registry, h.crews, h.devices, h.prompt.congr rfl rfl rfl,
        h.prompt'.congr rfl rfl rfl⟩
    | stop => exact h.withRegistry (h.registry.stopAll hids)

/-- A device call that is made in both worlds begins alike. -/
theorem acceptDevice (h : w.Sibling ids ids' known same w') (hids : Registry.Matching ids ids')
    (hs : Service.Sibling same service service') {id : String} (hid : id ∈ known) {c : DeviceCall}
    (hc : c ≠ .screenshot) :
    (w.acceptDevice service id c).1.Sibling ids ids' known same (w'.acceptDevice service' id c).1 ∧
      (w.acceptDevice service id c).2 = (w'.acceptDevice service' id c).2 := by
  obtain ⟨a, b, ha, hb, hab⟩ := h.devices id hid
  obtain ⟨hstate, hlatency, hsignals⟩ :
      same (service.accept w.now a c).state (service'.accept w'.now b c).state ∧
        (service.accept w.now a c).latency = (service'.accept w'.now b c).latency ∧
        (service.accept w.now a c).signals = (service'.accept w'.now b c).signals :=
    h.now ▸ hs.accept hab w.now c hc
  simp only [World.acceptDevice, ha, hb, ← hsignals]
  exact ⟨(h.insertDevice id hstate).heed hids _, hlatency⟩

/-- Devices of siblings answer alike, pictures apart. -/
theorem answerDevice (h : w.Sibling ids ids' known same w')
    (hs : Service.Sibling same service service') {id : String} (hid : id ∈ known) {c : DeviceCall}
    (hc : c ≠ .screenshot) :
    (w.answerDevice service id c).1.Sibling ids ids' known same (w'.answerDevice service' id c).1 ∧
      (w.answerDevice service id c).2 = (w'.answerDevice service' id c).2 := by
  obtain ⟨a, b, ha, hb, hab⟩ := h.devices id hid
  obtain ⟨hstate, hreply⟩ :
      same (service.answer w.now a c).1 (service'.answer w'.now b c).1 ∧
        (service.answer w.now a c).2 = (service'.answer w'.now b c).2 :=
    h.now ▸ hs.answer hab w.now c hc
  simp only [World.answerDevice, ha, hb]
  exact ⟨h.insertDevice id hstate, hreply⟩

/-! ## Calls that are made in both worlds -/

/-- Siblings remain so when calls that correspond are announced. -/
theorem announce (h : w.Sibling ids ids' known same w') (hc : RunCall.Pairs visits c c') :
    (w.announce l c).Sibling ids ids' known same (w'.announce l c') := by
  cases hc with
  | tours =>
    have hstart : ∀ crew : Crew, crew.start.bare = crew.bare.start := fun _ => rfl
    exact h.updateCrew l.run Crew.start hstart hstart
  | _ => exact h

/-- Siblings admit calls that correspond alike. -/
theorem admits (h : w.Sibling ids ids' known same w') (hc : RunCall.Pairs visits c c') :
    w.admits l c = w'.admits l c' := by
  cases hc with
  | begun =>
    have hbegun := h.map_crew? l.run Crew.begun (g := id) fun _ => rfl
    simp only [World.admits]
    cases hcrew : w.crew? l.run <;> cases hcrew' : w'.crew? l.run <;> simp_all
  | tours =>
    have hcomplete := h.map_crew? l.run Crew.isComplete (g := id) Crew.isComplete_bare
    simp only [World.admits]
    cases hcrew : w.crew? l.run <;> cases hcrew' : w'.crew? l.run <;> simp_all
  | _ => rfl

/-- Siblings accept calls that correspond alike. -/
theorem accept (h : w.Sibling ids ids' known same w') (hids : Registry.Matching ids ids')
    (hs : Service.Sibling same service service') (hl : visits → deviceOf l ∈ known)
    (hc : RunCall.Pairs visits c c') :
    (w.accept service l c).1.Sibling ids ids' known same (w'.accept service' l c').1 ∧
      (w.accept service l c).2 = (w'.accept service' l c').2 := by
  cases hc with
  | device hv hne => exact h.acceptDevice hids hs (hl hv) hne
  | _ =>
    rw [h.prompt.accept_eq service l rfl, h.prompt'.accept_eq service' l rfl]
    exact ⟨h, rfl⟩

/-- Siblings answer calls that correspond alike. -/
theorem answer (h : w.Sibling ids ids' known same w') (hids : Registry.Matching ids ids')
    (hs : Service.Sibling same service service') (hl : visits → deviceOf l ∈ known)
    (hc : RunCall.Pairs visits c c') :
    (w.answer service l c).1.Sibling ids ids' known same (w'.answer service' l c').1 ∧
      Option.Rel (RunCall.Heard c c') (w.answer service l c).2 (w'.answer service' l c').2 := by
  have hp := h.prompt.answer service l c
  have hp' := h.prompt'.answer service' l c'
  cases hc with
  | device hv hne =>
    obtain ⟨hw, hreply⟩ := h.answerDevice hs (hl hv) hne
    refine ⟨hw, ?_⟩
    simp only [World.answer, hreply]
    cases (w'.answerDevice service' (deviceOf l) _).2 with
    | none => exact .none
    | some reply => exact .some HEq.rfl
  | emit e e' => exact ⟨⟨h.now, h.registry, h.crews, h.devices, hp, hp'⟩, .some HEq.rfl⟩
  | update hf =>
    exact ⟨⟨h.now, h.registry.update _ hf, h.crews, h.devices, hp, hp'⟩, .some HEq.rfl⟩
  | progress =>
    refine ⟨h, ?_⟩
    have hprogress := h.registry.map_run? l.run RunState.overallProgress fun _ => rfl
    simp only [World.answer, hprogress]
    cases (w'.registry.run? l.run).map RunState.overallProgress with
    | none => exact .none
    | some percent => exact .some HEq.rfl
  | register => exact ⟨⟨h.now, h.registry, h.crews, h.devices, hp, hp'⟩, .some HEq.rfl⟩
  | unregister => exact ⟨⟨h.now, h.registry, h.crews, h.devices, hp, hp'⟩, .some HEq.rfl⟩
  | begun => exact ⟨h, .some HEq.rfl⟩
  | tours =>
    refine ⟨h, ?_⟩
    have houtcomes := h.map_crew? l.run Crew.outcomes
      (g := List.map (·.map TourResult.bare)) Crew.outcomes_bare
    simp only [World.answer]
    cases hcrew : w.crew? l.run <;> cases hcrew' : w'.crew? l.run <;>
      simp only [hcrew, hcrew', Option.map_some, Option.map_none, reduceCtorEq] at houtcomes
    · exact .none
    · exact .some (Option.some.inj houtcomes)
  | archive => exact ⟨⟨h.now, h.registry, h.crews, h.devices, hp, hp'⟩, .some HEq.rfl⟩
  | retire => exact ⟨h.retire hids service service' l, .some HEq.rfl⟩

/-! ## Calls that are made in one world only -/

/-- A picture changes the device in one world, as far as pictures matter. -/
theorem photographed (h : w.Sibling ids ids' known same w')
    (hs : Service.Sibling same service service') (hid : deviceOf l ∈ known) :
    ∃ w₁ r, (host service).take w l (.device .screenshot) = (w₁, .inr (some r)) ∧
      w₁.Sibling ids ids' known same w' := by
  obtain ⟨a, b, ha, hb, hab⟩ := h.devices _ hid
  obtain ⟨hlatency, hsignals, state, reply, hanswer, hkept⟩ := hs.pictures b w.now a hab
  let devices := w.devices.insert (deviceOf l) (service.accept w.now a .screenshot).state
  refine ⟨{ w with devices := devices.insert (deviceOf l) state }, reply, ?_, h.now, h.registry,
    h.crews, fun id hid => ?_, h.prompt.congr rfl rfl rfl, h.prompt'⟩
  · simp only [Host.take, host, World.accept, World.acceptDevice, ha, hsignals, hlatency,
      List.foldl_nil, ↓reduceIte, World.answer, World.answerDevice, TextMap.get?_insert_self, hanswer,
      devices]
  · simp only [devices, TextMap.get?_insert]
    by_cases heq : id = deviceOf l
    · exact ⟨state, b, by simp [heq], heq ▸ hb, hkept⟩
    · simpa [heq] using h.devices id hid

/-- A helper is called and answers at once, in one world. -/
theorem helped (h : w.Sibling ids ids' known same w') (service : Service DeviceCall.Reply σ)
    (l : Role) (hc : RunCall.Aside visits c) (hdevice : c.isDevice = false) :
    (w.announce l c).admits l c = true ∧
      ∃ w₁ r, (host service).take (w.announce l c) l c = (w₁, .inr (some r)) ∧
        w₁.Sibling ids ids' known same w' := by
  obtain ⟨recorder, hswift⟩ := h.prompt.swift
  obtain ⟨ms, haccept, hms⟩ := (hswift.announce l c).accept_eq service l hdevice
  have hprompt := h.prompt.answer_announce service l c
  have hsibling : ((w.announce l c).answer service l c).1.Sibling ids ids' known same w' := by
    cases c with
    | device c => cases hdevice
    | save context artifact =>
      cases hdesk : w.desk with
      | none =>
        simp only [World.answer, World.save, World.announce, hdesk, Option.map_none] at hprompt ⊢
        exact ⟨h.now, h.registry, h.crews, h.devices, hprompt, h.prompt'⟩
      | some desk =>
        simp only [World.answer, World.save, World.announce, hdesk, Option.map_some] at hprompt ⊢
        exact ⟨h.now, h.registry, h.crews, h.devices, hprompt, h.prompt'⟩
    | startVideo context => exact ⟨h.now, h.registry, h.crews, h.devices, hprompt, h.prompt'⟩
    | stopVideo context => exact ⟨h.now, h.registry, h.crews, h.devices, hprompt, h.prompt'⟩
    | _ => exact hc.elim
  obtain ⟨r, hreply⟩ : ∃ r, ((w.announce l c).answer service l c).2 = some r := by
    cases c with
    | device c => cases hdevice
    | save context artifact => exact ⟨_, rfl⟩
    | startVideo context => exact ⟨_, rfl⟩
    | stopVideo context => exact ⟨_, rfl⟩
    | _ => exact hc.elim
  refine ⟨?_, _, r, ?_, hsibling⟩
  · cases c with
    | save context artifact => exact h.prompt.deserted.admits_announce rfl
    | device c => rfl
    | startVideo context => rfl
    | stopVideo context => rfl
    | _ => exact hc.elim
  · have hzero : ms = 0 := hms (by cases c <;> first | rfl | exact hc.elim)
    simp only [Host.take, host, haccept, hzero, ↓reduceIte, ← hreply]

/-- What one of two siblings does with its helpers takes no time, and leaves them siblings. -/
theorem asideLeft (h : w.Sibling ids ids' known same w')
    (hs : Service.Sibling same service service') (hl : visits → deviceOf l ∈ known)
    (hc : RunCall.Aside visits c) : (w.announce l c).admits l c = true ∧
      ∃ w₁ r, (host service).take (w.announce l c) l c = (w₁, .inr (some r)) ∧
        w₁.Sibling ids ids' known same w' := by
  cases hdevice : c.isDevice with
  | false => exact h.helped service l hc hdevice
  | true =>
    cases c with
    | device c =>
      obtain ⟨hv, rfl⟩ := hc
      exact ⟨rfl, h.photographed hs (hl hv)⟩
    | _ => cases hdevice

end Sibling

/-- What a lead ends with without pictures is what it ends with, but for the pictures. -/
theorem map_lead? (r : Option RoleResult) :
    (RoleResult.lead? r).map SuiteResult.bare = RoleResult.lead? (r.map RoleResult.bare) := by
  rcases r with _ | (r | r) <;> rfl

/-- What a tour ends with without pictures is what it ends with, but for the pictures. -/
theorem map_tour? (r : Option RoleResult) :
    (RoleResult.tour? r).map TourResult.bare = RoleResult.tour? (r.map RoleResult.bare) := by
  rcases r with _ | (r | r) <;> rfl

/-- Tasks that come to the same but for pictures leave the worlds siblings. -/
theorem Sibling.finish {ids ids' : Nat → String} {known : List String} {same : σ → σ' → Prop}
    {w : World σ} {w' : World σ'} (h : w.Sibling ids ids' known same w') (l : Role)
    {r r' : Option RoleResult} (hr : Option.Rel (fun x y => x.bare = y.bare) r r') :
    (w.finish l r).Sibling ids ids' known same (w'.finish l r') := by
  have hbare : r.map RoleResult.bare = r'.map RoleResult.bare := by
    cases hr with
    | none => rfl
    | some hr => exact congrArg some hr
  cases l with
  | lead n =>
    exact h.updateCrew n (·.close (RoleResult.lead? (r.map RoleResult.bare)))
      (fun crew => by rw [← map_lead?]; rfl) fun crew => by rw [hbare, ← map_lead?]; rfl
  | tour n place id =>
    exact h.updateCrew n (·.report place (RoleResult.tour? (r.map RoleResult.bare)))
      (fun crew => by rw [crew.bare_report, map_tour?])
      fun crew => by rw [crew.bare_report, map_tour?, hbare]

/-- Sibling worlds keep abreast of each other. -/
theorem Sibling.abreast {ids ids' : Nat → String} (hids : Registry.Matching ids ids')
    {known : List String} {same : σ → σ' → Prop} {service : Service DeviceCall.Reply σ}
    {service' : Service DeviceCall.Reply σ'} (hs : Service.Sibling same service service') {l : Role}
    {visits : Prop} (hl : visits → deviceOf l ∈ known) :
    (host service).Abreast (host service') l (RunCall.pairing visits) (fun x y => x.bare = y.bare)
      (Sibling ids ids' known same) where
  now h := h.now
  stopped h := h.isStopped l.run
  announced hc h := h.announce hc
  admitted hc h := h.admits hc
  accepted hc h := h.accept hids hs hl hc
  answered hc h := h.answer hids hs hl hc
  asideLeft hc h := h.asideLeft hs hl hc
  asideRight hc h := by
    obtain ⟨hadm, w₁, r, htake, hw₁⟩ := h.symm.asideLeft hs.symm hl hc
    exact ⟨hadm, w₁, r, htake, hw₁.symm⟩
  finished hr h := h.finish l hr

end World
end DeviceSuite
