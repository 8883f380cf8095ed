import DeviceSuite.Proofs.Run.Counting

/-!
# Writing off the devices without a result

Once all tours have ended, the lead writes off the devices of those that came to nothing, one after
the other, before the run has a result. With that, the tasks of a run reckon its slots from the
beginning.
-/

namespace DeviceSuite

namespace RunCall

/-- The calls of a lead that write nothing off. -/
def Clerical (c : RunCall) : Prop :=
  (∃ status, c = .update fun s => s.withStatus status) ∨ c.Bookkeeping ∧ c.changes = false

/-- To set the status writes nothing off. -/
theorem clerical_withStatus (status : RunStatus) :
    (update fun s => s.withStatus status).Clerical := .inl ⟨status, rfl⟩

/-- To tell an event writes nothing off. -/
theorem clerical_emit (e : Event) : (emit e).Clerical := .inr ⟨bookkeeping_emit e, rfl⟩

/-- To keep the result writes nothing off. -/
theorem clerical_archive (result : SuiteResult) : (archive result).Clerical :=
  .inr ⟨bookkeeping_of_changes rfl rfl, rfl⟩

/-- To take the run off the list writes nothing off. -/
theorem clerical_retire : retire.Clerical := .inr ⟨bookkeeping_of_changes rfl rfl, rfl⟩

/-- A clerical call is steady. -/
theorem Clerical.steady {c : RunCall} (h : c.Clerical) : c.Steady := by
  obtain ⟨status, rfl⟩ | ⟨hc, -⟩ := h
  · exact steady_withStatus status
  · exact hc.1

end RunCall

variable {run : RunState} {n : Nat} {scenarios : List Graph} {b b' : Books}
  {hcap : ∀ id, run.request.deviceIds.count id * run.request.slotsPerDevice.toNat < UInt32.size}
  {outcomes : List (Option TourResult)} {entries done : List (String × Option TourResult)}

/-- A lead may make any clerical call. -/
theorem RunCall.Clerical.mayReckon {c : RunCall} (h : c.Clerical) :
    b.MayReckon run scenarios (.lead n) c := by
  obtain ⟨status, rfl⟩ | ⟨hbook, hchanges⟩ := h
  · exact .inl ⟨status, rfl⟩
  · have hworks := RunCall.not_works_of_bookkeeping hbook.2
    cases c <;> first | exact hworks | cases hchanges

namespace Books

/-- All tours have ended, and the devices of some of those without a result are written off. -/
structure Collected (run : RunState) (outcomes : List (Option TourResult))
    (done : List (String × Option TourResult)) (b : Books) : Prop where
  sound : b.Sound run
  complete : b.crew.isComplete = true
  outcomes : b.crew.outcomes = outcomes
  written : ∀ e ∈ done, ¬ Arrived e.2 → b.WrittenOff run e.1

/-- What is written off does not depend on anything but what the devices show. -/
theorem Collected.congr (h : b.Collected run outcomes done) (hs : b'.Sound run)
    (hcrew : b'.crew.isComplete = b.crew.isComplete ∧ b'.crew.outcomes = b.crew.outcomes)
    (hdevices : b'.state.devices = b.state.devices) : b'.Collected run outcomes done := by
  refine ⟨hs, hcrew.1.trans h.complete, hcrew.2.trans h.outcomes, ?_⟩
  intro e he hnot
  obtain ⟨p, hp, hwritten⟩ := h.written e he hnot
  exact ⟨p, (congrArg (TextMap.get? · e.1) hdevices).trans hp, hwritten⟩

/-- What is written off stays so while the others go on. -/
theorem Collected.drift (h : b.Collected run outcomes done)
    (hd : ((reckoning run n scenarios hcap).terms (.lead n)).drifts b b') :
    b'.Collected run outcomes done := by
  have htally := hd.1.tally rfl h.complete
  have hdevices : b'.state.devices = b.state.devices := congrArg (·.2.2.1) htally
  exact h.congr (hd.1.sound h.sound) ⟨isComplete_of_tally htally, outcomes_of_tally htally⟩ hdevices

/-- A clerical call leaves what is written off as it is. -/
theorem Collected.clerical (h : b.Collected run outcomes done) {c : RunCall} (hc : c.Clerical) :
    ((b.note (.lead n) c).answered (.lead n) c).Collected run outcomes done := by
  refine h.congr (h.sound.call hc.steady) ⟨?_, ?_⟩ ?_
  · rw [crew_call]
  · rw [crew_call]
  · obtain ⟨status, rfl⟩ | ⟨-, hchanges⟩ := hc
    · rfl
    · cases c <;> first | rfl | cases hchanges

/-- A tour of which the lead was told no result lost its device. -/
theorem Collected.lost (h : b.Collected run outcomes done) {id : String}
    {outcome : Option TourResult} (hmem : (id, outcome) ∈ run.request.deviceIds.zip outcomes)
    (hnot : ¬ Arrived outcome) : b.Lost run id := by
  rw [← h.outcomes] at hmem
  obtain ⟨place, hid, hreport⟩ := (h.sound.mem_zip_outcomes h.complete).1 hmem
  exact ⟨h.complete, place, outcome, hreport, hnot, hid⟩

/-- To write off one more device adds it to those that are. -/
theorem Collected.writeOff (h : b.Collected run outcomes done) (id : String)
    (outcome : Option TourResult) :
    (b.book (.lead n) fun s => s.writeOff id).Collected run outcomes (done ++ [(id, outcome)]) := by
  have hself : (b.book (.lead n) fun s => s.writeOff id).WrittenOff run id := by
    obtain ⟨p, hp, hslots, hstatus⟩ := b.state.device?_writeOff id
    exact ⟨p, hp, h.sound.request ▸ hslots, hstatus⟩
  have hsound := h.sound.call (l := .lead n) (RunCall.steady_writeOff id)
  refine ⟨⟨hsound.title, hsound.size, hsound.nodup, hsound.places⟩, h.complete, h.outcomes, ?_⟩
  intro e he hnot
  rcases List.mem_append.1 he with he | he
  · by_cases heq : e.1 = id
    · exact heq ▸ hself
    · obtain ⟨p, hp, hwritten⟩ := h.written e he hnot
      exact ⟨p, (b.state.device?_writeOff_of_ne id e.1 heq).trans hp, hwritten⟩
  · obtain rfl := List.mem_singleton.1 he
    exact hself

/-- When all of them have been gone through, the books are settled. -/
theorem Collected.settled (h : b.Collected run outcomes (run.request.deviceIds.zip outcomes)) :
    b.Settled run := by
  refine ⟨h.complete, ?_⟩
  intro place outcome id hmem hnot hid
  have hzip := (h.sound.mem_zip_outcomes h.complete).2 ⟨place, hid, hmem⟩
  rw [h.outcomes] at hzip
  exact h.written _ hzip hnot

end Books

namespace RunTask

open Books

/-- A lead that makes a clerical call leaves the books sound. -/
theorem abides_clerical {c : RunCall} (hc : c.Clerical) (hs : b.Sound run) :
    (Task.ask c : RunTask c.Reply).Abides ((reckoning run n scenarios hcap).terms (.lead n))
      (Task.Upon (fun _ => True) fun _ b => b.Sound run) b :=
  abides_sound (only_call hc) (fun _ _ hc => ⟨hc.steady, hc.mayReckon⟩) hs

/-- Clerical calls write nothing off, and none of what is written off is undone. -/
theorem abides_after {α : Type} {t : RunTask α} {P : α → Prop} (ht : t.Only RunCall.Clerical P)
    (h : b.Collected run outcomes done) :
    t.Abides ((reckoning run n scenarios hcap).terms (.lead n))
      (Task.Upon (fun _ => True) fun _ b => b.Collected run outcomes done) b := by
  apply (Accord.abides_only (J := Books.Collected run outcomes done) ht h
    (fun b b' h hd => h.drift hd) _).upon (fun _ _ => trivial) fun _ _ h => h.2
  intro c b hc h
  exact ⟨⟨trivial, hc.steady, hc.mayReckon⟩, h.clerical hc⟩

/-- A lead may write off a device without a result. -/
theorem abides_writeOff {id : String} {outcome : Option TourResult}
    (h : b.Collected run outcomes done)
    (hmem : (id, outcome) ∈ run.request.deviceIds.zip outcomes) (hnot : ¬ Arrived outcome) :
    (update fun s => s.writeOff id).Abides ((reckoning run n scenarios hcap).terms (.lead n))
      (Task.Upon (fun _ => True) fun _ b =>
        b.Collected run outcomes (done ++ [(id, outcome)])) b := by
  have hmay : b.MayReckon run scenarios (.lead n) (.update fun s => s.writeOff id) :=
    .inr ⟨id, h.lost hmem hnot, rfl⟩
  apply Accord.abides_instant (l := .lead n) rfl ⟨trivial, RunCall.steady_writeOff id, hmay⟩
  intro reply hreply
  obtain ⟨a, rfl⟩ := Option.isSome_iff_exists.1 (hreply.isSome rfl)
  have hbook := h.writeOff (n := n) id outcome
  exact hbook.congr (h.sound.call (RunCall.steady_writeOff id)) ⟨rfl, rfl⟩ rfl

/-- The lead goes through the outcomes of the tours and leaves no device behind. -/
theorem abides_collect (hall : done ++ entries = run.request.deviceIds.zip outcomes)
    (h : b.Collected run outcomes done) :
    (collect entries).Abides ((reckoning run n scenarios hcap).terms (.lead n))
      (Task.Upon (fun _ => True) fun _ b =>
        b.Collected run outcomes (run.request.deviceIds.zip outcomes)) b := by
  induction entries using collect.induct generalizing done b with
  | case1 =>
    rw [List.append_nil] at hall
    exact hall ▸ h
  | case2 id result rest ih =>
    rw [collect]
    have h' : b.Collected run outcomes (done ++ [(id, some (.ok result))]) := by
      refine ⟨h.sound, h.complete, h.outcomes, ?_⟩
      intro e he hnot
      rcases List.mem_append.1 he with he | he
      · exact h.written e he hnot
      · obtain rfl := List.mem_singleton.1 he
        exact absurd ⟨result, rfl⟩ hnot
    exact (ih (by rw [← hall, List.append_assoc, List.singleton_append]) h').bind fun _ b hb => hb
  | case3 id outcome rest houtcome ih =>
    have hnot : ¬ Arrived outcome := fun h => h.elim houtcome
    have hmem : (id, outcome) ∈ run.request.deviceIds.zip outcomes :=
      hall ▸ List.mem_append_right _ List.mem_cons_self
    rw [collect]
    · apply (abides_writeOff h hmem hnot).bind
      intro _ b hb
      exact ih (by rw [← hall, List.append_assoc, List.singleton_append]) hb
    · exact houtcome

/-- The run has no result before all devices without one are written off. -/
theorem abides_lead_settled (hs : b.Sound run) :
    (lead run).Abides ((reckoning run n scenarios hcap).terms (.lead n))
      (Task.Upon (fun _ => True) fun _ b => b.Settled run) b := by
  rw [lead]
  apply (abides_clerical (RunCall.clerical_withStatus _) hs).bind
  intro _ b hs
  apply Task.Abides.now_bind
  intro ms
  apply (abides_clerical (RunCall.clerical_emit _) hs).bind
  intro _ b hs
  apply (abides_tours (fun _ h => h.1) hs).bind
  intro reports b ⟨hs, hcomplete, houtcomes⟩
  have h : b.Collected run reports [] :=
    ⟨hs, hcomplete, houtcomes, fun e he => absurd he List.not_mem_nil⟩
  apply (abides_collect (List.nil_append _) h).bind
  intro devices b h
  apply Task.Abides.isStopped_bind
  intro stopped _
  apply Task.Abides.now_bind
  intro ms
  apply (abides_after (only_call (RunCall.clerical_withStatus _)) h).bind
  intro _ b h
  apply (abides_after (only_call (RunCall.clerical_archive _)) h).bind
  intro _ b h
  apply (abides_after (only_call RunCall.clerical_retire) h).bind
  intro _ b h
  apply (abides_after (only_call (RunCall.clerical_emit _)) h).bind
  intro _ b h
  exact h.settled

end RunTask

/-- A tour of a run that begins has counted nothing, and has nothing in hand. -/
theorem Books.blank_held {place : Nat} {id : String} (h : run.Fresh)
    (hid : run.request.deviceIds[place]? = some id) :
    (Books.blank run).Held run n place id 0 .free .initial :=
  ⟨blank_open hid, rfl, rfl, fun _ => h.shows id (List.mem_of_getElem? hid)⟩

/-- A run that begins is reckoned from nothing. -/
theorem Books.blank_reckoned (h : run.Fresh) : (Books.blank run).Reckoned run := by
  have hcounted : ∀ id, counted run.request.deviceIds (fun _ => 0) id = 0 := fun id =>
    Nat.le_zero.1 ((counted_le fun _ => Nat.le_refl 0).trans_eq (Nat.mul_zero _))
  constructor
  case share => exact fun _ => Nat.zero_le _
  case entries =>
    intro id hid
    exact Option.isSome_iff_exists.2 ⟨_, h.shows id hid⟩
  case level =>
    refine ⟨0, h.units, ?_⟩
    rw [Nat.zero_add]
    apply Finset.sum_congr rfl
    intro id hid
    have hslots : (blank run).state.slotsDone id = 0 := h.slotsDone (List.mem_toFinset.1 hid)
    rw [hslots, blank, hcounted, Nat.sub_zero, Nat.max_zero]
  case slots =>
    intro id hid
    exact .inl ((h.slotsDone hid).trans (hcounted id).symm)
  case arrived => exact fun _ _ h => absurd h List.not_mem_nil
  case lost => exact fun _ _ h => absurd h List.not_mem_nil
  case rest => exact fun _ _ _ _ h => absurd h List.not_mem_nil
  case result => exact fun h => by cases h

/-- The tasks of a run reckon its slots from the beginning. -/
theorem reckoning_joined (h : run.Fresh)
    (hsize : run.request.repeatCount.toNat * scenarios.length = run.request.slotsPerDevice.toNat)
    (hpos : 0 < run.request.slotsPerDevice.toNat) :
    (reckoning run n scenarios hcap).Joined scenarios where
  blank := by
    refine ⟨Books.blank_reckoned h, fun _ => Calls.handy_nil, ?_⟩
    intro _ _ _ _ _ _ _ h
    cases h
  lead {b} hd := by
    apply (RunTask.abides_lead_settled (hd.1.sound (Books.blank_sound _))).mono
    intro b r hr
    cases r with
    | none => exact fun h => by cases h
    | some r => exact fun _ => hr
  tour := by
    rintro t place b rfl rfl hid - hd
    have hb := (Books.blank_held h hid).drift hd
    have hnote := hb.note (c := .begun) rfl
    refine ⟨fun h => absurd h.1 id, fun {b'} hd' => ?_⟩
    have hheld := hnote.drift hd'
    apply (t.counts_conduct hsize (Nat.lt_of_lt_of_eq hpos hsize.symm) hheld).mono
    intro b r hr
    cases r with
    | none =>
      apply hr.ends
      rintro ⟨d, hd⟩
      cases hd
    | some r => exact Books.Done.ends hr

end DeviceSuite
