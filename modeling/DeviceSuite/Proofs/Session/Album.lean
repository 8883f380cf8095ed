import DeviceSuite.Proofs.Run.Album
import DeviceSuite.Proofs.Run.Events
import DeviceSuite.Proofs.Session.Recordings

/-!
# The album of a run

What the sink holds is what it held when the run began, and the images that the minutes say are
saved. Each place that a result records is that of a picture of the slot, and its image is there.
Places tell the pictures of a run apart, but for the repeat: two repeats whose pictures of one node
are taken in the same millisecond have one place for two images.
-/

namespace DeviceSuite

/-- The image that a minute says is saved. -/
def Minute.image? : Minute RunCall.Reply Role → Option Image
  | .answered _ c reply => c.image? reply
  | .begun _ _ => none

/-- The images that minutes say are saved. -/
def Minutes.images (minutes : Minutes) : List Image := minutes.filterMap Minute.image?

/-- Minutes after others say that their images are saved after the others. -/
theorem Minutes.images_append (minutes more : Minutes) :
    images (minutes ++ more) = minutes.images ++ images more := List.filterMap_append ..

/-- The minutes of a transcript have the images that it is told of. -/
theorem image_of_mem_minutesOf {l : Role} {told : List (Answer RunCall.Reply)} {i : Image} :
    i ∈ Minutes.images (minutesOf l told) ↔ ∃ answer ∈ told, answer.image? = some i := by
  simp only [Minutes.images, minutesOf, List.filterMap_flatMap, List.mem_flatMap]
  refine exists_congr fun answer => and_congr_right fun _ => ?_
  cases answer <;> simp [Answer.minutes, Answer.image?, Minute.image?]

namespace Image

variable (i : Image)

/-- What the sink keeps of an image. -/
def entry : SavedArtifact × List UInt8 := (i.receipt, i.artifact.bytes)

/-- What is told of an image is what the sink makes of it. -/
def Genuine : Prop := ArtifactSink.receipt i.context i.artifact = .ok i.receipt

/-- An image of a picture that is taken in a run. -/
structure IsOf (x : Capture) (runId : String) : Prop where
  context : i.context = x.context runId
  fileName : i.artifact.fileName = x.fileName

variable {i} {x : Capture} {runId : String}

/-- A genuine image has the path that the sink makes of its context and the name of its file. -/
theorem Genuine.path_eq (h : i.Genuine) :
    i.receipt.path = ArtifactSink.path i.context i.artifact.fileName := by
  rw [Genuine, ArtifactSink.receipt] at h
  split at h
  · cases h
  · rw [← Except.ok.inj h]

/-- An image is put at the place of its picture. -/
theorem IsOf.path_eq (h : i.IsOf x runId) (hgenuine : i.Genuine) :
    i.receipt.path = x.path runId := by
  rw [hgenuine.path_eq, h.context, h.fileName, Capture.path]

end Image

namespace World

variable {σ : Type} (w : World σ) (service : Service DeviceCall.Reply σ) (l : Role) (c : RunCall)

/-- What the sink holds; without a desk there is nothing. -/
def saved : List (SavedArtifact × List UInt8) := (w.desk.map (·.sink.saved)).getD []

/-- The sink holds what it held before and the images that the minutes say are saved, and what they
tell of them is true. -/
structure Files (before : List (SavedArtifact × List UInt8)) (x : World σ × Minutes) : Prop where
  holds : x.1.saved = before ++ x.2.images.map Image.entry
  genuine : ∀ i ∈ x.2.images, i.Genuine

variable {w} in
/-- The sink files what minutes say when it has filed what the earlier ones said. -/
theorem Files.trans {before : List (SavedArtifact × List UInt8)} {minutes more : Minutes}
    {w' : World σ} (h : Files before (w, minutes)) (h' : Files w.saved (w', more)) :
    Files before (w', minutes ++ more) := by
  constructor
  · rw [h'.holds, h.holds, Minutes.images_append, List.map_append, List.append_assoc]
  · rw [Minutes.images_append]
    exact List.forall_mem_append.2 ⟨h.genuine, h'.genuine⟩

variable {w} in
/-- Nothing has been saved meanwhile. -/
theorem files_of_images_eq_nil {w' : World σ} {minutes : Minutes} (hnone : minutes.images = [])
    (h : w'.saved = w.saved) : Files w.saved (w', minutes) :=
  ⟨by simp [h, hnone], by simp [hnone]⟩

/-- A change of the sink that leaves what is saved alone does so with a desk and without one. -/
theorem updateSink_saved (f : ArtifactSink → ArtifactSink) (hf : ∀ s, (f s).saved = s.saved) :
    (w.updateSink f).saved = w.saved := by
  simp [saved, updateSink, ArtifactDesk.mapSink, Function.comp_def, hf]

/-- The answer to a save tells what the sink has done. -/
theorem files_answer_save (context : Context) (artifact : Artifact) :
    Files w.saved ((w.answer service l (.save context artifact)).1,
      [.answered l _ (w.answer service l (.save context artifact)).2]) := by
  have hrefused : ∀ {w' : World σ} {e : ArtifactError}, w'.saved = w.saved →
      Files w.saved (w', [.answered l (.save context artifact) (some (.error e))]) :=
    files_of_images_eq_nil rfl
  simp only [answer, save]
  cases hdesk : w.desk with
  | none => exact hrefused rfl
  | some desk =>
    have hsaved : w.saved = desk.sink.saved := by rw [saved, hdesk]; rfl
    simp only [ArtifactDesk.save, ArtifactDesk.put]
    cases desk.refusals.head?.join with
    | some message => exact hrefused hsaved.symm
    | none =>
      cases hreceipt : ArtifactSink.receipt context artifact with
      | error e =>
        apply hrefused
        simp [saved, hdesk, ArtifactSink.save, hreceipt]
      | ok receipt =>
        have himage : Minutes.images [Minute.answered l (.save context artifact)
            (some (.ok receipt))] = [⟨context, artifact, receipt⟩] := rfl
        constructor
        · simp only [himage, hsaved]
          simp [saved, ArtifactSink.save, hreceipt, Image.entry]
        · rw [himage]
          exact List.forall_mem_singleton.2 hreceipt

/-- An answer files the image that it says is saved. -/
theorem files_answer :
    Files w.saved ((w.answer service l c).1, [.answered l c (w.answer service l c).2]) := by
  have hanswers := w.answers service l c
  cases c with
  | save context artifact => exact w.files_answer_save service l context artifact
  | register context =>
    apply files_of_images_eq_nil rfl
    exact w.updateSink_saved (·.register context) fun s => by
      simp only [ArtifactSink.register]
      split <;> rfl
  | unregister context =>
    apply files_of_images_eq_nil rfl
    exact w.updateSink_saved (·.unregister context) fun s => rfl
  | _ =>
    apply files_of_images_eq_nil rfl
    simp [saved, hanswers.desk_eq]

/-- A strand that goes on saves what its minutes say. -/
theorem files_resume {strand : Strand RunCall.Reply RoleResult}
    (able : (host service).isAble w l strand = true) :
    Files w.saved (((host service).resume l strand w).1,
      (host service).minutesOf l strand w) := by
  have able' : (host service).minuted.isAble (w, []) l strand = true := by
    cases strand <;> exact able
  have hkept : Files w.saved ((host service).minuted.resume l strand (w, [])).1 := by
    apply Host.resume_keeps (P := Files w.saved) _ _ _ _ able' (files_of_images_eq_nil rfl rfl)
    · rintro ⟨w', log⟩ c h
      refine ⟨Eq.trans ?_ h.holds, h.genuine⟩
      cases c with
      | save context artifact =>
        change ((w'.desk.map _).map _).getD [] = (w'.desk.map _).getD []
        simp [Function.comp_def, ArtifactDesk.request]
      | _ => rfl
    · rintro ⟨w', log⟩ c h
      obtain ⟨registry, devices, snapshots, hw'⟩ := w'.accept_eq service l c
      have hsaved : (w'.accept service l c).1.saved = w'.saved := by rw [hw']; rfl
      exact h.trans (files_of_images_eq_nil rfl hsaved)
    · rintro ⟨w', log⟩ c h
      exact h.trans (w'.files_answer service l c)
    · rintro ⟨w', log⟩ r h
      refine ⟨Eq.trans ?_ h.holds, h.genuine⟩
      cases l <;> rfl
  rw [Host.minuted_resume] at hkept
  exact hkept

end World

namespace Session

variable {σ : Type} (s : Session σ)

/-- What the sink holds at a place. -/
def content? (path : String) : Option (List UInt8) :=
  s.world.desk.bind fun d => d.sink.content? path

/-- What the sink holds at a place is the first that has been put there. -/
theorem content?_eq (path : String) :
    s.content? path = (s.world.saved.find? fun e => e.1.path == path).map (·.2) := by
  rw [content?, World.saved]
  cases s.world.desk <;> rfl

variable {s} {m : Move}

/-- A move saves what its minutes say. -/
theorem files_perform (h : s.allows m = true) :
    World.Files s.world.saved ((s.perform m).world, s.minutesOf m) := by
  cases moved_of_allows h with
  | turn able turn found goes world strands minutes =>
    rw [world, minutes]
    exact s.world.files_resume _ _ goes
  | aside more added strands new runs crews blank desk minutes =>
    rw [minutes]
    exact World.files_of_images_eq_nil rfl (by rw [World.saved, World.saved, desk])

end Session

namespace Course

variable {σ : Type} (c : Course σ)

/-- From the launch on the sink has filed the images of the minutes. -/
theorem files : World.Files c.start.world.saved (c.now.world, c.minutes) :=
  Session.performs_keeps
    (P := fun s minutes => World.Files c.start.world.saved (s.world, minutes))
    (World.files_of_images_eq_nil rfl rfl) (fun h hm => h.trans (Session.files_perform hm))
    c.allowed

/-- A picture that a device of the run may take. -/
def Takes (x : Capture) : Prop :=
  ∃ place, c.request.deviceIds[place]? = some x.deviceId ∧ (c.tour place x.deviceId).Takes x

/-- The names of devices have no slash, and those of scenarios, or else of nodes, no underscore. -/
structure Plain : Prop where
  devices : ∀ id ∈ c.request.deviceIds, '/' ∉ id.toList
  names : (∀ g ∈ c.scenarios, '_' ∉ g.id.toList) ∨
    ∀ g ∈ c.scenarios, ∀ n ∈ g.nodes, '_' ∉ n.id.toList

/-- Nothing but images of one slot has ever been put at a place. -/
structure Reserved (context : Context) (path : String) : Prop where
  free : ∀ e ∈ c.start.world.saved, e.1.path ≠ path
  own : ∀ i ∈ c.minutes.images, i.receipt.path = path → i.context = context

/-- The pictures of a run, and their places. -/
structure Filed : Prop where
  /-- Whatever a device of the run saves is a picture of one of its slots, at the place of the
  picture. -/
  saved : ∀ place id, c.request.deviceIds[place]? = some id →
    ∀ i ∈ (c.minutes.ofTask (.tour c.number place id)).images, ∃ x, c.Takes x ∧
      x.deviceId = id ∧ i.IsOf x c.run.runId ∧ i.receipt.path = x.path c.run.runId
  /-- Each place that the result of a slot records is that of a picture of this slot, which has been
  saved there. -/
  recorded : ∀ r, c.now.result? c.number = some r → ∀ d ∈ r.deviceResults, ∀ e ∈ d.entries,
    ∃ x, c.Takes x ∧ x.deviceId = d.deviceId ∧ x.scenarioId = e.scenarioId ∧
      x.iteration = e.iteration ∧ e.path = x.path c.run.runId ∧
      ∃ i ∈ c.minutes.images, i.IsOf x c.run.runId ∧ i.receipt.path = e.path
  /-- Pictures of different milliseconds have different places, whatever the names are. -/
  dated : ∀ x y, c.Takes x → c.Takes y → x.path c.run.runId = y.path c.run.runId → x.ms = y.ms
  /-- As long as the names are plain, so have pictures of different devices, scenarios or nodes; the
  repeat makes no difference. -/
  apart : c.Plain → ∀ x y, c.Takes x → c.Takes y → (x.path c.run.runId = y.path c.run.runId ↔
    x.deviceId = y.deviceId ∧ x.scenarioId = y.scenarioId ∧ x.nodeId = y.nodeId ∧ x.ms = y.ms)
  /-- Where an image has been put, and nothing but images of its slot, one of them is found. -/
  found : ∀ i ∈ c.minutes.images, c.Reserved i.context i.receipt.path →
    ∃ j ∈ c.minutes.images, j.context = i.context ∧
      c.now.content? i.receipt.path = some j.artifact.bytes

/-- What the result of a run records, and what is found there. -/
def album : List (UInt32 × String × Option (List UInt8)) :=
  (c.now.result? c.number).elim [] fun r => r.deviceResults.flatMap fun d =>
    d.entries.map fun e => (e.iteration, e.path, c.now.content? e.path)

variable {c} {place : Nat} {id : String}

/-- A picture that is taken has names as plain as those of its run. -/
theorem Takes.clean {x : Capture} (hplain : c.Plain) (h : c.Takes x) :
    '/' ∉ x.deviceId.toList ∧
      ((∀ g ∈ c.scenarios, '_' ∉ g.id.toList) → '_' ∉ x.scenarioId.toList) ∧
      ((∀ g ∈ c.scenarios, ∀ n ∈ g.nodes, '_' ∉ n.id.toList) → '_' ∉ x.nodeId.toList) := by
  obtain ⟨place, hid, -, ⟨g, hg, hscenario, n, hn, hnode⟩, -⟩ := h
  refine ⟨hplain.devices _ (List.mem_of_getElem? hid), fun h => ?_, fun h => ?_⟩
  · rw [hscenario]
    exact h g hg
  · rw [hnode]
    exact h g hg n hn

/-- What a tour is told to have saved is a picture of it. -/
theorem exists_isOf {told : List (Answer RunCall.Reply)} {outcome : Option TourResult}
    (hid : c.request.deviceIds[place]? = some id)
    (hyields : (c.tour place id).conduct.Yields told outcome) {answer : Answer RunCall.Reply}
    (hanswer : answer ∈ told) {i : Image} (hi : answer.image? = some i) :
    ∃ x, c.Takes x ∧ x.deviceId = id ∧ i.IsOf x c.run.runId := by
  obtain ⟨hcalls, -⟩ := (Tour.shows_conduct (t := c.tour place id)).of_yields hyields
  obtain rfl := Answer.eq_of_image? hi
  obtain ⟨x, htakes, hcontext, -, hname⟩ :=
    hcalls _ _ (List.mem_filterMap.2 ⟨_, hanswer, rfl⟩)
  obtain rfl : x.deviceId = id := htakes.device
  exact ⟨x, ⟨place, hid, htakes⟩, rfl, hcontext, hname⟩

/-- What a tour has saved is at the place of a picture of it. -/
theorem saved_of_mem (hid : c.request.deviceIds[place]? = some id) {i : Image}
    (hi : i ∈ (c.minutes.ofTask (.tour c.number place id)).images) :
    ∃ x, c.Takes x ∧ x.deviceId = id ∧ i.IsOf x c.run.runId ∧
      i.receipt.path = x.path c.run.runId := by
  obtain ⟨strand, reply, told, outcome, -, hyields, hstart, -⟩ := c.told hid
  obtain ⟨answer, hanswer, himage⟩ :=
    image_of_mem_minutesOf.1 ((hstart.filterMap Minute.image?).subset hi)
  have hold : i ∈ c.minutes.images :=
    (List.filter_sublist.filterMap Minute.image?).subset hi
  rcases List.mem_cons.1 hanswer with rfl | htold
  · cases himage
  · obtain ⟨x, htakes, hdevice, hof⟩ := exists_isOf hid hyields htold himage
    exact ⟨x, htakes, hdevice, hof, hof.path_eq (c.files.genuine i hold)⟩

/-- What a result records has been saved as a picture of its slot. -/
theorem recorded_of_mem {r : SuiteResult} (hr : c.now.result? c.number = some r)
    {d : DeviceResult} (hd : d ∈ r.deviceResults) {e : Entry} (he : e ∈ d.entries) :
    ∃ x, c.Takes x ∧ x.deviceId = d.deviceId ∧ x.scenarioId = e.scenarioId ∧
      x.iteration = e.iteration ∧ e.path = x.path c.run.runId ∧
      ∃ i ∈ c.minutes.images, i.IsOf x c.run.runId ∧ i.receipt.path = e.path := by
  obtain ⟨crew, hcrew, -, hdevices⟩ := c.reported hr
  obtain ⟨place, id, hid, hreport⟩ := hdevices d hd
  obtain ⟨reply, told, hyields, hminutes⟩ := c.told_of_reported hid hcrew hreport
  obtain ⟨-, hentries⟩ := (Tour.shows_conduct (t := c.tour place id)).of_yields hyields
  obtain ⟨hname, -⟩ := (c.tour place id).returns_conduct.of_yields hyields d rfl
  rcases hentries _ rfl e he with hnone | ⟨answer, hanswer, i, hi, hcontext, hpath⟩
  · cases hnone
  · obtain ⟨x, htakes, hdevice, hof⟩ := exists_isOf hid hyields hanswer hi
    have htask : i ∈ (c.minutes.ofTask (.tour c.number place id)).images :=
      hminutes ▸ image_of_mem_minutesOf.2 ⟨answer, List.mem_cons_of_mem _ hanswer, hi⟩
    have hold : i ∈ c.minutes.images :=
      (List.filter_sublist.filterMap Minute.image?).subset htask
    have hslot : x.context c.run.runId =
        (c.tour place id).context.forScenario e.scenarioId e.iteration :=
      hof.context.symm.trans hcontext
    simp only [Capture.context, Context.forScenario, Context.mk.injEq, Option.some.injEq] at hslot
    exact ⟨x, htakes, hdevice.trans hname.symm, hslot.2.2.2.1, hslot.2.2.2.2,
      hpath.symm.trans (hof.path_eq (c.files.genuine i hold)), i, hold, hof, hpath⟩

/-- Where an image has been put, an image is found that has been put there. -/
theorem found_of_reserved {i : Image} (hi : i ∈ c.minutes.images)
    (hreserved : c.Reserved i.context i.receipt.path) :
    ∃ j ∈ c.minutes.images, j.context = i.context ∧
      c.now.content? i.receipt.path = some j.artifact.bytes := by
  have hmem : i.entry ∈ c.now.world.saved :=
    c.files.holds ▸ List.mem_append_right _ (List.mem_map_of_mem hi)
  rw [Session.content?_eq]
  cases hfind : c.now.world.saved.find? fun e => e.1.path == i.receipt.path with
  | none => exact absurd (beq_self_eq_true _) (List.find?_eq_none.1 hfind _ hmem)
  | some e =>
    have hpath : e.1.path = i.receipt.path := by simpa using List.find?_some hfind
    have he := c.files.holds ▸ List.mem_of_find?_eq_some hfind
    rcases List.mem_append.1 he with hold | hnew
    · exact absurd hpath (hreserved.free e hold)
    · obtain ⟨j, hj, rfl⟩ := List.mem_map.1 hnew
      exact ⟨j, hj, hreserved.own j hj hpath, rfl⟩

/-- The places of the pictures of a run tell their devices, scenarios, nodes and milliseconds, and
nothing else: what is saved and what is recorded is at the place of a picture of its slot. -/
theorem places_tell (c : Course σ) : c.Filed where
  saved _ _ hid _ hi := saved_of_mem hid hi
  recorded _ hr _ hd _ he := recorded_of_mem hr hd he
  found _ hi hreserved := found_of_reserved hi hreserved
  dated _ _ _ _ h := (Capture.split_path h).1
  apart hplain x y hx hy := by
    obtain ⟨hdevice, hscenario, hnode⟩ := hx.clean hplain
    obtain ⟨hdevice', hscenario', hnode'⟩ := hy.clean hplain
    apply Capture.path_eq_iff hdevice hdevice'
    exact hplain.names.imp (fun h => ⟨hscenario h, hscenario' h⟩) fun h => ⟨hnode h, hnode' h⟩

end Course

namespace Sample

/-- A device that fails at everything it is told to do, and whose pictures are all different. -/
def camera : Service DeviceCall.Reply Nat where
  accept _ n _ := ⟨n, 0, []⟩
  answer _ n
    | .environment => (n, some described)
    | .appInfo => (n, some (.ok none))
    | .perform _ => (n, some (.error (.other "no")))
    | .locate _ => (n, some (.ok .absent))
    | .screenshot => (n + 1, some (.ok [UInt8.ofNat n]))

/-- The session with such a device, a scenario that taps, and a sink. -/
def photographed : Session Nat :=
  let plan : SessionPlan Nat :=
    { service := camera
      devices := [("d", 0)]
      scenarios := ⟨.ofList [("g", tap)], .empty⟩
      suites := .empty
      archive := .empty
      readFault := none
      listFault := none
      desk := some fun places => .new places (fun _ _ => 0) []
      recorder := .idle
      runId := fun _ => "r"
      suiteId := fun _ => "s" }
  { plan := plan
    settings := .default
    scenarios := plan.scenarios
    connected := ["d"]
    handles := []
    pool := .empty
      { now := 0
        registry := .empty
        crews := []
        devices := .ofList plan.devices
        desk := some (.new Settings.default.artifactConcurrency.toNat (fun _ _ => 0) [])
        recorder := .idle
        archive := .empty
        events := []
        snapshots := [] } }

/-- The session with the camera can be opened. -/
theorem opened_photographed : photographed.Opened := by
  have h : Session.setUp photographed.plan (.given .default) = .ok photographed := rfl
  exact .setUp h

/-- A request for two repeats of the scenario, so many milliseconds apart. -/
def twice (interval : UInt64) : Request :=
  { request ["d"] with repeatCount := 2, scenarioInterval := interval }

/-- The course of such a run. -/
def pictured (interval : UInt64) (moves : List Move)
    (allowed : (photographed.launch "s" "" (twice interval) [tap]).1.allowsAll moves = true) :
    Course Nat :=
  ⟨photographed, opened_photographed, "s", "", twice interval, [tap], rfl, moves, allowed⟩

end Sample

namespace Course

/-- Two repeats of a slot, one millisecond apart, have their pictures at two places. -/
theorem places_tell_sample : ∃ c : Course Nat, c.Plain ∧ c.Filed ∧ c.album =
    [(1, "r/d/d_g_t_19700101T000000000.png", some [0]),
      (2, "r/d/d_g_t_19700101T000000001.png", some [1])] := by
  let moves : List Move := [.turn 0, .turn 1, .clock 1, .turn 1, .turn 0]
  have hplain : (Sample.pictured 1 moves (by decide +kernel)).Plain :=
    ⟨by decide, .inl (by decide)⟩
  exact ⟨_, hplain, places_tell _, by decide +kernel⟩

/-- A device fails at the same node in two repeats, in one millisecond: two different images are
saved at one place, which both results record, and where only the first image is found. -/
theorem pictures_collide : ∃ c : Course Nat, c.Plain ∧ c.request.deviceIds.Nodup ∧
    (c.scenarios.map Graph.id).Nodup ∧ (∀ g ∈ c.scenarios, (g.nodes.map Node.id).Nodup) ∧
    c.minutes.images.map (fun i => (i.context.iteration, i.receipt.path, i.artifact.bytes)) =
      [(some 1, "r/d/d_g_t_19700101T000000000.png", [0]),
        (some 2, "r/d/d_g_t_19700101T000000000.png", [1])] ∧
    c.album = [(1, "r/d/d_g_t_19700101T000000000.png", some [0]),
      (2, "r/d/d_g_t_19700101T000000000.png", some [0])] := by
  let moves : List Move := [.turn 0, .turn 1, .turn 0]
  have hplain : (Sample.pictured 0 moves (by decide +kernel)).Plain :=
    ⟨by decide, .inl (by decide)⟩
  exact ⟨_, hplain, by decide, by decide, by decide, by decide +kernel, by decide +kernel⟩

end Course

end DeviceSuite
