import DeviceSuite.Proofs.Run.Captures
import DeviceSuite.Proofs.Session.Seats

/-!
# The pictures that a tour saves and records

In all transcripts of a tour, whatever is saved is a picture of a slot at a node of its scenario,
and each place that the result of a slot records is one that the tour was told when it saved a
picture of this slot.
-/

namespace DeviceSuite

/-- A call that saves nothing. -/
def RunCall.IsIdle (c : RunCall) : Prop := c.saves = false

/-- An image that has been saved: for which slot, from which artifact, and what was told of it. -/
structure Image where
  context : Context
  artifact : Artifact
  receipt : SavedArtifact

/-- The image that is saved by a call, if its answer says so. -/
def RunCall.image? : (c : RunCall) → Option c.Reply → Option Image
  | .save context artifact, some (.ok receipt) => some ⟨context, artifact, receipt⟩
  | _, _ => none

/-- The image that the answer says is saved. -/
def Answer.image? : Answer RunCall.Reply → Option Image
  | .reply c r => c.image? r
  | _ => none

/-- Only a save that went well is answered with an image. -/
theorem Answer.eq_of_image? {answer : Answer RunCall.Reply} {i : Image}
    (h : answer.image? = some i) :
    answer = .reply (.save i.context i.artifact) (some (.ok i.receipt)) := by
  cases answer with
  | reply c r =>
    rw [image?, RunCall.image?.eq_def] at h
    split at h
    · cases h
      rfl
    · cases h
  | _ => cases h

/-- The answer says that an image was saved at this place for this context. -/
def Answer.Places (answer : Answer RunCall.Reply) (context : Context) (path : String) : Prop :=
  ∃ i ∈ answer.image?, i.context = context ∧ i.receipt.path = path

namespace Task

variable {α β ι : Type} {S : Context → Artifact → Prop} {w : Answer RunCall.Reply → ι → Prop}
  {before : List ι} {items : α → List ι} {t : RunTask α}

/-- What a task saves is such as `S` says, and what its result has in it was there before or has
been told to the task. -/
def Shows (S : Context → Artifact → Prop) (w : Answer RunCall.Reply → ι → Prop) (before : List ι)
    (items : α → List ι) (t : RunTask α) : Prop :=
  t.Ends fun told r =>
    (∀ context artifact, .save context artifact ∈ told.filterMap Answer.call? →
      S context artifact) ∧
    ∀ a ∈ r, ∀ i ∈ items a, i ∈ before ∨ ∃ answer ∈ told, w answer i

/-- A task that ends at once shows what there is, which was there before. -/
theorem shows_done {a : α} (h : items a ⊆ before) : Shows S w before items (.done a) := by
  refine ⟨fun _ _ hc => absurd hc List.not_mem_nil, ?_⟩
  rintro _ ⟨⟩ i hi
  exact .inl (h hi)

/-- A task that saves nothing and shows nothing new. -/
theorem shows_of_only {P : α → Prop} (h : t.Only RunCall.IsIdle P)
    (hP : ∀ a, P a → items a = before) : Shows S w before items t := by
  apply h.ends.mono
  intro told r hr
  refine ⟨fun context artifact hc => ?_, fun a ha i hi => .inl (hP a (hr.2 a ha) ▸ hi)⟩
  have hidle : true = false := hr.1 _ hc
  cases hidle

/-- What two tasks show one after the other was there before, or one of them has been told of it. -/
theorem Shows.bind {items' : β → List ι} {f : α → RunTask β} (h : Shows S w before items t)
    (hf : ∀ a, Shows S w (items a) items' (f a)) : Shows S w before items' (t >>= f) := by
  apply ends_bind.2
  apply Ends.mono h
  intro told r hr
  cases r with
  | none => exact ⟨hr.1, by simp⟩
  | some a =>
    apply Ends.mono (hf a)
    intro more r' hr'
    refine ⟨fun context artifact hc => ?_, ?_⟩
    · rw [List.filterMap_append] at hc
      exact (List.mem_append.1 hc).elim (hr.1 context artifact) (hr'.1 context artifact)
    · intro b hb i hi
      rcases hr'.2 b hb i hi with hitem | ⟨answer, hanswer, hw⟩
      · rcases hr.2 a rfl i hitem with hbefore | ⟨answer, hanswer, hw⟩
        · exact .inl hbefore
        · exact .inr ⟨answer, List.mem_append_left _ hanswer, hw⟩
      · exact .inr ⟨answer, List.mem_append_right _ hanswer, hw⟩

/-- A task shows nothing new before it goes on. -/
theorem Shows.idle_bind {items' : β → List ι} {f : α → RunTask β} {P : α → Prop}
    (h : t.Only RunCall.IsIdle P) (hf : ∀ a, Shows S w before items' (f a)) :
    Shows S w before items' (t >>= f) :=
  have hidle : Shows S w before (fun _ => before) t := shows_of_only h fun _ _ => rfl
  hidle.bind hf

/-- To read the clock shows nothing. -/
theorem Shows.now_bind {items' : β → List ι} {f : Nat → RunTask β}
    (hf : ∀ ms, Shows S w before items' (f ms)) :
    Shows S w before items' ((now : RunTask Nat) >>= f) :=
  Shows.idle_bind (P := fun _ => True) (fun _ => trivial) hf

/-- What was there from the beginning is still there. -/
theorem Shows.frame (h : Shows S w [] items t) (before : List ι) :
    Shows S w before (fun a => before ++ items a) t := by
  apply Ends.mono h
  intro told r hr
  refine ⟨hr.1, fun a ha i hi => ?_⟩
  rcases List.mem_append.1 hi with hbefore | hitem
  · exact .inl hbefore
  · exact (hr.2 a ha i hitem).imp_left fun hnone => absurd hnone List.not_mem_nil

end Task

open DeviceSuite.Task

namespace RunTask

/-- Nothing is saved on a device. -/
theorem only_idle_onDevice {α : Type} (t : DeviceTask α) :
    (onDevice t).Only RunCall.IsIdle fun _ => True :=
  Task.only_embed (fun _ => rfl) fun _ => trivial

/-- An event saves nothing. -/
theorem only_idle_emit (e : Event) : (emit e).Only RunCall.IsIdle fun _ => True :=
  only_call rfl

/-- To read the stop flag saves nothing. -/
theorem only_idle_isStopped : (Task.isStopped : RunTask Bool).Only RunCall.IsIdle fun _ => True :=
  fun _ => trivial

end RunTask

namespace SlotPlan

variable (p : SlotPlan) (g : Graph) {n : Node}

/-- What is saved is a picture at a node of the scenario. -/
def IsPicture (context : Context) (artifact : Artifact) : Prop :=
  context = p.context ∧ ∃ n ∈ g.nodes, ∃ ms, artifact.nodeId = some n.id ∧
    artifact.fileName = p.pictureName n (.ofMillis ms)

/-- A part of a slot saves pictures of the scenario, and has in its result the places that were
there before or that it was told of. -/
abbrev Pictured {α : Type} (before : List String) (paths : α → List String) (t : RunTask α) :
    Prop :=
  Shows (p.IsPicture g) (·.Places p.context) before paths t

variable {p g}

/-- The places that a save is told of. -/
def places : Except ArtifactError SavedArtifact → List String
  | .ok saved => [saved.path]
  | .error _ => []

/-- To save a picture is to be told of its place, if it is saved. -/
theorem shows_save {artifact : Artifact} (h : p.IsPicture g p.context artifact) :
    p.Pictured g [] places (Task.ask (RunCall.save p.context artifact)) := by
  apply Task.ends_ask.2
  intro reply
  constructor
  · intro context artifact hc
    obtain ⟨rfl, rfl⟩ := RunCall.save.inj (List.mem_singleton.1 hc)
    exact h
  rintro receipt ⟨⟩ path hpath
  cases receipt with
  | error e => cases hpath
  | ok saved =>
    obtain rfl := List.mem_singleton.1 hpath
    exact .inr ⟨_, List.mem_singleton_self _, ⟨p.context, artifact, saved⟩, rfl, rfl, rfl⟩

/-- A picture that is saved is told of. -/
theorem shows_photograph (hn : n ∈ g.nodes) :
    p.Pictured g [] Option.toList (p.photograph n) := by
  apply Shows.idle_bind (RunTask.only_idle_onDevice _)
  rintro (e | bytes)
  · exact shows_done (List.Subset.refl _)
  · rw [RunTask.instant]
    refine Shows.now_bind fun ms => ?_
    refine (shows_save ⟨rfl, n, hn, ms, rfl, rfl⟩).bind fun receipt => ?_
    cases receipt <;> exact shows_done (List.Subset.refl _)

/-- An action shows the picture of its failure. -/
theorem shows_conduct (hn : n ∈ g.nodes) (options : StepOptions) :
    p.Pictured g [] (fun x => x.2.toList) (p.conduct n options) := by
  apply Shows.idle_bind (RunTask.only_idle_onDevice _)
  intro outcome
  dsimp only
  split
  · exact (shows_photograph hn).bind fun picture => shows_done (List.Subset.refl _)
  · exact shows_done (List.Subset.refl _)

/-- To tell a record saves nothing, and leaves the pictures as they are. -/
theorem only_idle_complete (result : ScenarioResult) (step : StepResult) :
    (p.complete result step).Only RunCall.IsIdle fun r => r.screenshots = result.screenshots :=
  Task.only_bind.2 (RunTask.only_emit.2 ⟨rfl, fun _ => rfl⟩)

/-- To tell a record shows no more pictures than the record has. -/
theorem shows_complete (result : ScenarioResult) (step : StepResult) (flow : Flow) :
    p.Pictured g result.screenshots (fun x => x.1.screenshots)
      (do return (← p.complete result step, flow)) := by
  have honly : (do return (← p.complete result step, flow) : RunTask (ScenarioResult × Flow)).Only
      RunCall.IsIdle fun x => x.1.screenshots = result.screenshots :=
    Task.only_bind.2 ((only_idle_complete result step).mono fun _ h => h)
  exact shows_of_only honly fun _ hx => hx

/-- To tell of a step that is to come leaves the pictures as they are. -/
theorem only_idle_forewarn (started : Nat) (result : ScenarioResult) :
    (p.forewarn n started result).Only RunCall.IsIdle fun r =>
      r.screenshots = result.screenshots := by
  rw [forewarn]
  split
  · exact Task.only_bind.2 (RunTask.only_emit.2 ⟨rfl, fun _ => rfl⟩)
  · rfl

/-- A step is recorded with the picture of its failure behind those that were there. -/
theorem only_idle_conclude (started : Nat) (result : ScenarioResult) (outcome : Outcome)
    (picture : Option String) (ended : Nat) :
    (p.conclude n started result outcome picture ended).Only RunCall.IsIdle fun x =>
      x.1.screenshots = result.screenshots ++ picture.toList := by
  simp only [conclude]
  split
  · exact Task.only_bind.2 ((only_idle_complete _ _).mono fun _ h => h)
  · exact Task.only_bind.2 ((only_idle_complete _ _).mono fun _ h => h)

/-- The pictures after a step are those before it and those that it was told of. -/
theorem shows_act (hn : n ∈ g.nodes) (options : StepOptions) (started : Nat)
    (result : ScenarioResult) :
    p.Pictured g result.screenshots (fun x => x.1.screenshots)
      (p.act n options started result) := by
  rw [act_eq]
  have hforewarn : p.Pictured g result.screenshots ScenarioResult.screenshots
      (p.forewarn n started result) :=
    shows_of_only (only_idle_forewarn started result) fun r hr => hr
  refine hforewarn.bind fun r => ((shows_conduct hn options).frame r.screenshots).bind fun x => ?_
  refine Shows.now_bind fun ended => ?_
  exact shows_of_only (only_idle_conclude started r x.1 x.2 ended) fun y hy => hy

/-- The pictures after any step are those before it and those that it was told of. -/
theorem shows_step (hn : n ∈ g.nodes) (result : ScenarioResult) :
    p.Pictured g result.screenshots (fun x => x.1.screenshots) (p.step n result) := by
  rw [step]
  split
  · exact shows_done (List.Subset.refl _)
  · refine Shows.now_bind fun started => ?_
    refine Shows.idle_bind (RunTask.only_idle_emit _) fun _ => ?_
    split
    · exact shows_complete result _ _
    · split
      · refine Shows.idle_bind (RunTask.only_idle_onDevice _) fun b => ?_
        refine Shows.now_bind fun ended => ?_
        exact shows_complete result _ _
      · exact shows_act hn _ started result

/-- So do the pictures after a walk. -/
theorem shows_walk (nav : Navigator) (hgraph : nav.graph = g) (hn : n ∈ g.nodes)
    (result : ScenarioResult) :
    p.Pictured g result.screenshots ScenarioResult.screenshots (p.walk nav n result) := by
  induction nav, n, result using SlotPlan.walk.induct with
  | case1 nav n result ih =>
    rw [walk]
    refine Shows.idle_bind RunTask.only_idle_isStopped fun stopped => ?_
    split
    · exact shows_done (List.Subset.refl _)
    · refine (shows_step hn result).bind fun x => ?_
      rcases x with ⟨result', answer | error⟩
      · dsimp only
        split
        · exact shows_done (List.Subset.refl _)
        · next nav' next hnext =>
          obtain ⟨rfl, -, hmem, -⟩ := Navigator.advance?_eq_some hnext
          exact ih _ _ _ _ hnext hgraph (hgraph ▸ hmem)
      · exact shows_done (List.Subset.refl _)

/-- The pictures of a slot are those that it was told of. -/
theorem shows_run (g : Graph) (iteration : UInt32) :
    p.Pictured g [] ScenarioResult.screenshots (p.run g iteration) := by
  rw [run]
  refine Shows.now_bind fun started => ?_
  dsimp only
  have hend : ∀ r : ScenarioResult, p.Pictured g r.screenshots ScenarioResult.screenshots (do
      let ended ← Task.now
      return { r with completedAt := .ofMillis ended, durationMs := millis (ended - started) }) :=
    fun r => Shows.now_bind fun ended => shows_done (List.Subset.refl _)
  split
  · exact hend _
  · next nav n hstart =>
    obtain ⟨m, hm, heq⟩ := Option.map_eq_some_iff.1 hstart
    cases heq
    have hgraph : ((Navigator.new g p.settings.maxNodeVisits).enter n).graph = g := rfl
    exact (shows_walk _ hgraph (List.mem_of_find?_eq_some hm) _).bind hend

end SlotPlan

/-- A place that the result of a slot records: for which scenario, in which repeat, and where. -/
structure Entry where
  scenarioId : String
  iteration : UInt32
  path : String

/-- The places that the result of a slot records. -/
def ScenarioResult.entries (r : ScenarioResult) : List Entry :=
  r.screenshots.map fun path => ⟨r.scenarioId, r.iteration, path⟩

/-- The places that the results of a device record. -/
def DeviceResult.entries (d : DeviceResult) : List Entry :=
  d.scenarioResults.flatMap ScenarioResult.entries

/-- The places of a device with one more slot are those that it had and those of the slot. -/
theorem DeviceResult.entries_push (d : DeviceResult) (r : ScenarioResult) :
    (d.push r).entries = d.entries ++ r.entries := by
  simp [entries, push]

namespace Tour

variable {t : Tour} {g : Graph} {k : Nat} {d : DeviceResult}

/-- A picture of a slot of the tour, at a node of its scenario. -/
structure Takes (t : Tour) (x : Capture) : Prop where
  device : x.deviceId = t.deviceId
  node : ∃ g ∈ t.scenarios, x.scenarioId = g.id ∧ ∃ n ∈ g.nodes, x.nodeId = n.id
  slot : ∃ k < t.size, x.iteration = t.iteration k

/-- What is saved is a picture of the tour, under its name. -/
def IsPicture (t : Tour) (context : Context) (artifact : Artifact) : Prop :=
  ∃ x, t.Takes x ∧ context = x.context t.run.runId ∧ artifact.nodeId = some x.nodeId ∧
    artifact.fileName = x.fileName

/-- The answer says that a picture of the slot was saved where the entry says. -/
def Confirms (t : Tour) (answer : Answer RunCall.Reply) (e : Entry) : Prop :=
  answer.Places (t.context.forScenario e.scenarioId e.iteration) e.path

/-- A picture of a slot of the tour is one of the tour. -/
theorem isPicture_of_plan (hg : g ∈ t.scenarios) (hk : k < t.size) {context : Context}
    {artifact : Artifact} (h : (t.plan g k).IsPicture g context artifact) :
    t.IsPicture context artifact := by
  obtain ⟨hcontext, n, hn, ms, hnode, hname⟩ := h
  exact ⟨⟨t.deviceId, g.id, t.iteration k, n.id, ms⟩, ⟨rfl, ⟨g, hg, rfl, n, hn, rfl⟩, k, hk, rfl⟩,
    hcontext, hnode, hname⟩

/-- What the result of a slot records was told to the slot. -/
theorem shows_film (hg : g ∈ t.scenarios) (hk : k < t.size) :
    Shows t.IsPicture t.Confirms [] ScenarioResult.entries (t.film g k) := by
  have hrun : Shows t.IsPicture t.Confirms [] ScenarioResult.entries
      ((t.plan g k).run g (t.iteration k)) := by
    have hids := ((t.plan g k).only_run g (t.iteration k)).ends
    apply Task.Ends.mono (((t.plan g k).shows_run g (t.iteration k)).and hids)
    rintro told r ⟨⟨hcalls, hpaths⟩, -, hids⟩
    refine ⟨fun context artifact hc => isPicture_of_plan hg hk (hcalls context artifact hc),
      fun a ha e he => ?_⟩
    obtain ⟨path, hpath, rfl⟩ := List.mem_map.1 he
    obtain ⟨hid, -, hiteration, -⟩ := hids a ha
    rcases hpaths a ha path hpath with hnone | ⟨answer, hanswer, hplaces⟩
    · cases hnone
    · refine .inr ⟨answer, hanswer, ?_⟩
      rw [Confirms, hid, hiteration]
      exact hplaces
  have hstart : (t.startFilm g k).Only RunCall.IsIdle fun _ => True := by
    rw [startFilm]
    split
    · exact Task.only_bind.2 (Task.only_ask.2 ⟨rfl, fun _ => trivial⟩)
    · trivial
  have hend (recording : Bool) (r : ScenarioResult) :
      (t.endFilm g k recording r).Only RunCall.IsIdle fun r' => r'.entries = r.entries := by
    rw [endFilm]
    split
    · exact Task.only_bind.2 (Task.only_ask.2 ⟨rfl, fun _ => rfl⟩)
    · rfl
  rw [film_eq]
  refine Shows.idle_bind hstart fun recording => hrun.bind fun r => ?_
  exact shows_of_only (hend recording r) fun _ h => h

/-- A slot that is settled adds its places to those of the device. -/
theorem only_idle_settle (r : ScenarioResult) :
    (t.settle d r).Only RunCall.IsIdle fun d' => d'.entries = d.entries ++ r.entries :=
  Task.only_bind.2 (RunTask.only_update.2 ⟨rfl, fun _ => d.entries_push r⟩)

/-- A slot that is skipped adds no place. -/
theorem shows_skip : Shows t.IsPicture t.Confirms d.entries DeviceResult.entries (t.skip g k d) := by
  have honly : (t.skip g k d).Only RunCall.IsIdle fun d' => d'.entries = d.entries := by
    refine Task.only_bind.2 (RunTask.only_instant.2 fun ms => ?_)
    exact (only_idle_settle _).mono fun d' hd' => hd'.trans (List.append_nil _)
  exact shows_of_only honly fun _ h => h

/-- To change the progress of a device saves nothing. -/
theorem only_idle_updateDevice (f : DeviceProgress → DeviceProgress) :
    (t.updateDevice f).Only RunCall.IsIdle fun _ => True :=
  RunTask.only_call rfl

/-- A slot that is run adds the places that it was told of. -/
theorem shows_visit (hg : g ∈ t.scenarios) (hk : k < t.size) :
    Shows t.IsPicture t.Confirms d.entries DeviceResult.entries (t.visit g k d) := by
  have hannounce : (t.announce g k).Only RunCall.IsIdle fun _ => True := by
    simp only [announce, Task.only_bind, RunTask.only_emit, RunTask.only_instant, Task.only_ask]
    exact fun ms => ⟨rfl, fun _ => ⟨rfl, fun _ => ⟨rfl, fun _ => trivial⟩⟩⟩
  rw [visit]
  refine Shows.idle_bind (only_idle_updateDevice _) fun _ => ?_
  refine Shows.idle_bind hannounce fun _ => ?_
  refine ((shows_film hg hk).frame d.entries).bind fun r => ?_
  refine Shows.idle_bind (RunTask.only_idle_emit _) fun _ => ?_
  refine shows_of_only (Task.only_bind.2 ((only_idle_settle r).mono ?_)) fun _ h => h
  exact fun _ hd' => Task.only_bind.2 ((t.only_rest k).mono fun _ _ => hd')

/-- What the results of a tour record was told to the tour. -/
theorem shows_slots {left : Nat} (hk : k + left ≤ t.size) :
    Shows t.IsPicture t.Confirms d.entries DeviceResult.entries (t.slots left k d) := by
  induction left generalizing k d with
  | zero => exact shows_done (List.Subset.refl _)
  | succ left ih =>
    rw [slots]
    split
    · exact shows_done (List.Subset.refl _)
    · next g hg =>
      have hmem : g ∈ t.scenarios := List.mem_of_getElem? hg
      refine Shows.idle_bind RunTask.only_idle_isStopped fun stopped => ?_
      have hlt : k < t.size := by omega
      have hleft : k + 1 + left ≤ t.size := by omega
      cases stopped with
      | true => exact shows_skip.bind fun d' => ih hleft
      | false => exact (shows_visit hmem hlt).bind fun d' => ih hleft

/-- The places that a tour records are those that it was told of. -/
theorem shows_work : Shows t.IsPicture t.Confirms d.entries DeviceResult.entries (t.work d) := by
  have hregister : (Task.ask (RunCall.register t.context) : RunTask Unit).Only RunCall.IsIdle
      fun _ => True := RunTask.only_call rfl
  refine Shows.idle_bind hregister fun _ => ?_
  apply Task.ends_ensuring.2
  apply Task.Ends.mono (shows_slots (Nat.le_of_eq (Nat.zero_add t.size)))
  intro told r hr
  apply Task.ends_ask.2
  intro reply
  refine ⟨fun context artifact hc => ?_, fun a ha e he => ?_⟩
  · rw [List.filterMap_append] at hc
    refine (List.mem_append.1 hc).elim (hr.1 context artifact) fun hlast => ?_
    cases List.mem_singleton.1 hlast
  · cases reply with
    | none => cases ha
    | some _ =>
      exact (hr.2 a ha e he).imp_right fun ⟨answer, hanswer, h⟩ =>
        ⟨answer, List.mem_append_left _ hanswer, h⟩

/-- A tour saves nothing but pictures of its slots, and what its result records is what it was told
when it saved them. -/
theorem shows_conduct : Shows t.IsPicture t.Confirms []
    (fun outcome => (outcome.toOption.map DeviceResult.entries).getD []) t.conduct := by
  have hinstant : RunTask.instant.Only RunCall.IsIdle fun _ => True :=
    RunTask.only_instant.2 fun _ => trivial
  rw [conduct]
  refine Shows.idle_bind (RunTask.only_idle_onDevice _) ?_
  rintro (e | environment)
  · exact shows_done (List.Subset.refl _)
  · refine Shows.idle_bind (RunTask.only_idle_onDevice _) fun appInfo => ?_
    refine Shows.idle_bind (only_idle_updateDevice _) fun _ => ?_
    refine Shows.idle_bind hinstant fun time => ?_
    refine Shows.idle_bind (RunTask.only_idle_emit _) fun _ => ?_
    refine Shows.bind shows_work fun d => ?_
    refine Shows.idle_bind (only_idle_updateDevice _) fun _ => ?_
    refine Shows.idle_bind (RunTask.only_idle_emit _) fun _ => ?_
    exact shows_done (List.Subset.refl _)

end Tour

end DeviceSuite
