import DeviceSuite.Proofs.Result.Words
import DeviceSuite.Proofs.Run.Accounting
import DeviceSuite.Proofs.Run.WritingOff

/-!
# Counting in words

Slots are counted in words, which begin anew when they are full. Whether they do or not, a tour
that counts its slots tells the number of the next one as a word, and its device shows as a word how
many slots its tours have counted, until it is written off.
-/

namespace DeviceSuite

/-- The number of slots of each device: every scenario in every repeat. -/
def Request.slots (r : Request) : Nat := r.repeatCount.toNat * r.scenarioIds.length

/-- Whether a call counts a slot: it does so in whichever run. -/
def RunCall.countsSlot : RunCall → Bool
  | .update f =>
    (f (.new "" "" "" (.new [] []) (.ofMillis 0))).completedUnits ≠ 0
  | _ => false

/-- A call that neither changes the run nor tells the number of a slot. -/
def RunCall.Mute (c : RunCall) : Prop :=
  c.changes = false ∧ ∀ report, c ≠ .emit (.progress report)

/-- A call of a slot neither changes the run nor tells a number. -/
theorem RunCall.OfSlot.mute {c : RunCall} (h : c.OfSlot) : c.Mute :=
  ⟨h.changes, by rintro report rfl; exact h⟩

/-- An event that reports no progress tells no number. -/
theorem RunCall.mute_emit {e : Event} (h : ∀ report, e ≠ .progress report) :
    (RunCall.emit e).Mute :=
  ⟨rfl, fun report heq => h report (RunCall.emit.inj heq)⟩

/-- A call that does not change the run counts no slot. -/
theorem RunCall.Mute.countsSlot {c : RunCall} (h : c.Mute) : c.countsSlot = false := by
  cases c <;> first | rfl | cases h.1

/-- A slot that is counted goes round after 32 bits. -/
theorem RunState.slotsDone_completeSlot_mod (s : RunState) (id : String) :
    (s.completeSlot id).slotsDone id = (s.slotsDone id + 1) % UInt32.size := by
  have hself : (s.completeSlot id).device? id = some { (s.device? id).getD .initial with
      completedSlots := ((s.device? id).getD .initial).completedSlots + 1 } :=
    TextMap.get?_insert_self s.devices id _
  rw [slotsDone_of_device? _ _ hself]
  exact UInt32.toNat_add ..

namespace Calls

/-- The slots that a task has counted. -/
def slots (own : Calls) : Nat := own.countP fun e => e.call.countsSlot

/-- The slots that the tours of a device have counted. -/
def slotsOf (calls : Calls) (n : Nat) (ids : List String) (id : String) : Nat :=
  counted ids (fun place => slots (calls.filter fun e => e.label = .tour n place id)) id

/-- Each slot whose number is told is one of so many, and the one after those that have been
counted. -/
def Enumerates (total : Nat) (own : Calls) : Prop :=
  ∀ (earlier : Calls) (e : Begun RunCall Role), earlier ++ [e] <+: own →
    ∀ report, e.call = .emit (.progress report) → slots earlier < total ∧
      WordShows report.scenarioProgress.current.toNat (slots earlier + 1)

variable {total : Nat} {own : Calls} {e : Begun RunCall Role}

/-- A call counts a slot or none. -/
theorem slots_append (own : Calls) (e : Begun RunCall Role) :
    slots (own ++ [e]) = slots own + if e.call.countsSlot then 1 else 0 := by
  rw [slots, List.countP_append, List.countP_singleton, slots]

/-- A task enumerates its slots if the number that it tells last is the next. -/
theorem Enumerates.append (h : Enumerates total own)
    (he : ∀ report, e.call = .emit (.progress report) → slots own < total ∧
      WordShows report.scenarioProgress.current.toNat (slots own + 1)) :
    Enumerates total (own ++ [e]) := by
  intro earlier e' hprefix
  rcases List.prefix_concat_iff.1 hprefix with heq | hold
  · obtain ⟨rfl, hlast⟩ := List.append_inj' heq rfl
    exact List.singleton_inj.1 hlast ▸ he
  · exact h earlier e' hold

end Calls

namespace Books

variable (run : RunState) (n : Nat)

/-- What a task may count: a tour tells and counts its own slots, and the lead writes devices off
when all tours have ended. -/
inductive MayCount (b : Books) : Role → RunCall → Prop
  | mute {l : Role} {c : RunCall} (h : c.Mute) : MayCount b l c
  | tell {m place : Nat} {id : String} {report : ProgressReport}
    (hlt : Calls.slots (b.own (.tour m place id)) < run.request.slots)
    (h : WordShows report.scenarioProgress.current.toNat
      (Calls.slots (b.own (.tour m place id)) + 1)) :
    MayCount b (.tour m place id) (.emit (.progress report))
  | change {m place : Nat} {id : String} {g : DeviceProgress → DeviceProgress}
    (h : ∀ p, (g p).completedSlots = p.completedSlots) :
    MayCount b (.tour m place id) (.update fun s => s.updateDevice id g)
  | count {m place : Nat} {id : String}
    (h : Calls.slots (b.own (.tour m place id)) < run.request.slots) :
    MayCount b (.tour m place id) (.update fun s => s.completeSlot id)
  | status {m : Nat} {status : RunStatus} :
    MayCount b (.lead m) (.update fun s => s.withStatus status)
  | writeOff {m : Nat} {id : String} (h : b.crew.isComplete = true) :
    MayCount b (.lead m) (.update fun s => s.writeOff id)

/-- What a task that counts its slots ends with. -/
def EndsCounted (b : Books) : Role → Option RoleResult → Prop
  | .lead _, _ => True
  | .tour m place id, ending => ∀ d, ending = some (.tour (.ok d)) →
    Calls.slots (b.own (.tour m place id)) = run.request.slots

/-- The slots of a run are counted in words. -/
structure Worded (b : Books) : Prop where
  told : ∀ l, (b.own l).Enumerates run.request.slots
  within : ∀ place id, Calls.slots (b.own (.tour n place id)) ≤ run.request.slots
  ended : ∀ place id d, run.request.deviceIds[place]? = some id →
    (place, some (.ok d)) ∈ b.crew.reports →
    Calls.slots (b.own (.tour n place id)) = run.request.slots
  shown : ∀ id ∈ run.request.deviceIds,
    WordShows (b.state.slotsDone id) (b.calls.slotsOf n run.request.deviceIds id) ∨
      b.crew.isComplete = true ∧ b.state.slotsDone id = run.request.slotsPerDevice.toNat

variable {run n} {b : Books} {l : Role} {c : RunCall}

/-- A task that counts no slot leaves the numbers of counted slots as they are. -/
theorem slots_own_call (hc : c.countsSlot = false) (other : Role) :
    Calls.slots (((b.note l c).answered l c).own other) = Calls.slots (b.own other) := by
  by_cases hl : other = l
  · rw [hl, own_call, Calls.slots_append, hc]
    rfl
  · rw [own_call_of_ne hl]

/-- A call that counts no slot leaves the slots of all devices as they are. -/
theorem slotsOf_call (hc : c.countsSlot = false) (ids : List String) (id : String) :
    ((b.note l c).answered l c).calls.slotsOf n ids id = b.calls.slotsOf n ids id := by
  have hown : ∀ place, Calls.slots (((b.note l c).answered l c).own (.tour n place id)) =
      Calls.slots (b.own (.tour n place id)) := fun place => slots_own_call hc _
  exact congrArg (counted ids · id) (funext hown)

/-- A task that may count enumerates its slots. -/
theorem MayCount.told (h : b.MayCount run l c)
    (hold : (b.own l).Enumerates run.request.slots) :
    (((b.note l c).answered l c).own l).Enumerates run.request.slots := by
  rw [own_call]
  apply hold.append
  rintro report rfl
  cases h with
  | mute h => exact absurd rfl (h.2 report)
  | tell hlt h => exact ⟨hlt, h⟩

/-- What counts no slot leaves the slots counted, as long as the devices show the same. -/
theorem Worded.quiet (h : b.Worded run n) (hmay : b.MayCount run l c)
    (hc : c.countsSlot = false)
    (hshown : ∀ id, ((b.note l c).answered l c).state.slotsDone id = b.state.slotsDone id ∨
      b.crew.isComplete = true ∧
        ((b.note l c).answered l c).state.slotsDone id = run.request.slotsPerDevice.toNat) :
    ((b.note l c).answered l c).Worded run n where
  told other := by
    by_cases hl : other = l
    · exact hl ▸ hmay.told (h.told l)
    · rw [own_call_of_ne hl]
      exact h.told other
  within place id := by
    rw [slots_own_call hc]
    exact h.within place id
  ended place id d := by
    rw [slots_own_call hc, crew_call]
    exact h.ended place id d
  shown id hid := by
    rw [slotsOf_call hc, crew_call]
    rcases hshown id with hsame | hoff
    · rw [hsame]
      exact h.shown id hid
    · exact .inr hoff

/-- A tour that counts a slot has counted one more. -/
theorem slots_own_count (b : Books) (n place : Nat) (id : String) :
    let c : RunCall := .update fun s => s.completeSlot id
    Calls.slots (((b.note (.tour n place id) c).answered (.tour n place id) c).own
      (.tour n place id)) = Calls.slots (b.own (.tour n place id)) + 1 := by
  intro c
  rw [own_call, Calls.slots_append]
  rfl

/-- A slot of a tour is one more for its device, and for no other. -/
theorem slotsOf_count (b : Books) {ids : List String} {place : Nat} {id : String}
    (hid : ids[place]? = some id) (id' : String) :
    let c : RunCall := .update fun s => s.completeSlot id
    ((b.note (.tour n place id) c).answered (.tour n place id) c).calls.slotsOf n ids id' =
      b.calls.slotsOf n ids id' + if id' = id then 1 else 0 := by
  intro c
  have hshare : (fun p => Calls.slots (((b.note (.tour n place id) c).answered
      (.tour n place id) c).own (.tour n p id'))) =
      if id' = id then bump (fun p => Calls.slots (b.own (.tour n p id'))) place
      else fun p => Calls.slots (b.own (.tour n p id')) := by
    funext p
    by_cases hl : Role.tour n p id' = .tour n place id
    · obtain ⟨-, rfl, rfl⟩ := Role.tour.inj hl
      rw [if_pos rfl, slots_own_count, bump, if_pos rfl]
    · rw [own_call_of_ne hl]
      split
      · next heq =>
        subst heq
        have hp : place ≠ p := fun heq => hl (by rw [heq])
        exact (if_neg hp).symm
      · rfl
  refine (congrArg (counted ids · id') hshare).trans ?_
  split
  · exact (counted_bump hid id').trans (by simp [*, Calls.slotsOf, own])
  · rfl

/-- A tour counts one more slot, and its device shows it. -/
theorem Worded.count (h : b.Worded run n) (hs : b.Sound run) {place : Nat} {id : String}
    (ho : b.Open run (.tour n place id))
    (hlt : Calls.slots (b.own (.tour n place id)) < run.request.slots) :
    let c : RunCall := .update fun s => s.completeSlot id
    ((b.note (.tour n place id) c).answered (.tour n place id) c).Worded run n := by
  intro c
  constructor
  case told =>
    intro other
    by_cases hl : other = .tour n place id
    · exact hl ▸ (MayCount.count hlt).told (h.told _)
    · rw [own_call_of_ne hl]
      exact h.told other
  case within =>
    intro p id'
    by_cases hl : Role.tour n p id' = .tour n place id
    · rw [hl, slots_own_count]
      exact hlt
    · rw [own_call_of_ne hl]
      exact h.within p id'
  case ended =>
    intro p id' d hid hreport
    have hp : p ≠ place := by
      rintro rfl
      exact ho.2 (List.mem_map_of_mem hreport)
    rw [own_call_of_ne fun hl => hp (Role.tour.inj hl).2.1]
    exact h.ended p id' d hid hreport
  case shown =>
    intro id' hid'
    have hold : WordShows (b.state.slotsDone id')
        (b.calls.slotsOf n run.request.deviceIds id') := by
      refine (h.shown id' hid').resolve_right fun hoff => ?_
      have hopen := hs.not_complete ho
      rw [hoff.1] at hopen
      cases hopen
    left
    rw [slotsOf_count b ho.1]
    by_cases heq : id' = id
    · subst heq
      rw [if_pos rfl]
      have hdone : (b.state.completeSlot id').slotsDone id' = _ :=
        b.state.slotsDone_completeSlot_mod id'
      exact hdone.symm ▸ hold.succ
    · rw [if_neg heq]
      have hsame : (b.state.completeSlot id).slotsDone id' = b.state.slotsDone id' :=
        RunState.slotsDone_congr _ _ (b.state.device?_completeSlot_of_ne id id' heq)
      exact hsame.symm ▸ hold

/-- A run counts its slots in words when a task makes a call that it may make. -/
theorem Worded.call (h : b.Worded run n) (hs : b.Sound run) (ho : b.Open run l) (hl : l.run = n)
    (hmay : b.MayCount run l c) : ((b.note l c).answered l c).Worded run n := by
  cases id hmay with
  | mute hmute =>
    refine h.quiet hmay hmute.countsSlot fun id => .inl ?_
    cases c <;> first | rfl | cases hmute.1
  | tell => exact h.quiet hmay rfl fun _ => .inl rfl
  | @change m place id g hg =>
    exact h.quiet hmay rfl fun id' => .inl (b.state.slotsDone_updateDevice id id' hg)
  | @count m place id hlt =>
    obtain rfl : m = n := hl
    exact h.count hs ho hlt
  | status => exact h.quiet hmay rfl fun _ => .inl rfl
  | @writeOff m id hcomplete =>
    refine h.quiet hmay rfl fun id' => ?_
    by_cases heq : id' = id
    · subst heq
      exact .inr ⟨hcomplete, hs.request ▸ b.state.slotsDone_writeOff id'⟩
    · exact .inl (RunState.slotsDone_congr _ _ (b.state.device?_writeOff_of_ne id id' heq))

/-- A run counts its slots in words when a task ends as it should. -/
theorem Worded.finish (h : b.Worded run n) (hs : b.Sound run) (ho : b.Open run l) (hl : l.run = n)
    {ending : Option RoleResult} (hends : b.EndsCounted run l ending) :
    (b.finish l ending).Worded run n := by
  have hcomplete : b.crew.isComplete = true → (b.finish l ending).crew.isComplete = true := by
    cases l with
    | lead m => exact id
    | tour m place id => exact fun hc => by rw [hs.not_complete ho] at hc; cases hc
  refine ⟨h.told, h.within, ?_, fun id hid => (h.shown id hid).imp_right fun hoff =>
    ⟨hcomplete hoff.1, hoff.2⟩⟩
  intro place id d hid hreport
  cases l with
  | lead m => exact h.ended place id d hid hreport
  | tour m p id' =>
    obtain rfl : m = n := hl
    rcases mem_reports_finish.1 hreport with hold | ⟨rfl, htour⟩
    · exact h.ended place id d hid hold
    · obtain rfl : id' = id := Option.some.inj (ho.1.symm.trans hid)
      exact hends d (tour?_eq_some htour.symm)

/-- Nothing is counted before a run begins. -/
theorem blank_worded (hfresh : run.Fresh) : (Books.blank run).Worded run n := by
  have hown : ∀ l, (Books.blank run).own l = [] := fun _ => rfl
  have hcounted : ∀ id, counted run.request.deviceIds (fun _ => 0) id = 0 := fun id =>
    Nat.le_zero.1 ((counted_le fun _ => Nat.le_refl 0).trans_eq (Nat.mul_zero _))
  refine ⟨fun l earlier e h => ?_, fun _ _ => Nat.zero_le _, fun place id d _ hd => ?_,
    fun id hid => .inl ?_⟩
  · exact absurd (List.prefix_nil.1 (hown l ▸ h)) (List.concat_ne_nil _ _)
  · cases hd
  · have hdone : (Books.blank run).state.slotsDone id = 0 := hfresh.slotsDone hid
    have hnone : (Books.blank run).calls.slotsOf n run.request.deviceIds id = 0 := hcounted id
    rw [hdone, hnone]
    exact wordShows_iff.2 rfl

end Books

/-- The tasks of a run count its slots in words. -/
def wording (run : RunState) (n : Nat) : Accord run n :=
  .plain (Books.Worded run n) (fun l b c => b.MayCount run l c)
    (fun l b ending => b.EndsCounted run l ending)
    (fun _ h => ⟨h.told, h.within, h.ended, h.shown⟩)
    (fun _ h => ⟨h.told, h.within, h.ended, h.shown⟩)
    (fun hl hs h ho _ hmay => h.call hs ho hl hmay)
    (fun hl hs h ho hends => h.finish hs ho hl hends)

namespace Tour

variable {t : Tour} {g : Graph} {d : DeviceResult} {place k : Nat} {b b' : Books}
  {X : Books → Prop}

/-- A tour that has not ended has counted so many slots. -/
def CountsTo (t : Tour) (n place k : Nat) (b : Books) : Prop :=
  b.Open t.run (.tour n place t.deviceId) ∧
    Calls.slots (b.own (.tour n place t.deviceId)) = k

variable {n : Nat}

/-- A tour has counted what it has while the others go on. -/
theorem CountsTo.drift (h : t.CountsTo n place k b)
    (hd : ((wording t.run n).terms (.tour n place t.deviceId)).drifts b b') :
    t.CountsTo n place k b' :=
  ⟨hd.1.still h.1, (congrArg Calls.slots (hd.1.own h.1)).trans h.2⟩

/-- What counts no slot leaves a tour where it is. -/
theorem CountsTo.abides_only {α : Type} {u : RunTask α} {H : RunCall → Prop} {P : α → Prop}
    (h : t.CountsTo n place k b) (hu : u.Only H P)
    (hH : ∀ c, H c → c.Steady ∧ c.countsSlot = false ∧ ∀ b : Books, t.CountsTo n place k b →
      b.MayCount t.run (.tour n place t.deviceId) c) :
    u.Abides ((wording t.run n).terms (.tour n place t.deviceId))
      (Task.Upon (fun b => b.Open t.run (.tour n place t.deviceId)) fun a b =>
        P a ∧ t.CountsTo n place k b) b := by
  apply (Accord.abides_only (J := t.CountsTo n place k) hu h (fun b b' h hd => h.drift hd) _).upon
    (fun _ h => h.1) fun _ _ h => h
  intro c b hc hb
  obtain ⟨hsteady, hcount, hmay⟩ := hH c hc
  exact ⟨⟨hb.1, hsteady, hmay b hb⟩, hb.1.call c, (Books.slots_own_call hcount _).trans hb.2⟩

/-- A tour that makes mute calls counts nothing. -/
theorem CountsTo.abides_mute {α : Type} {u : RunTask α} {P : α → Prop}
    (h : t.CountsTo n place k b) (hu : u.Only RunCall.Mute P) :
    u.Abides ((wording t.run n).terms (.tour n place t.deviceId))
      (Task.Upon (fun b => b.Open t.run (.tour n place t.deviceId)) fun a b =>
        P a ∧ t.CountsTo n place k b) b :=
  h.abides_only hu fun _ hc => ⟨RunCall.steady_of_changes hc.1, hc.countsSlot, fun _ _ => .mute hc⟩

/-- A tour that changes the progress of its device otherwise counts nothing. -/
theorem CountsTo.abides_updateDevice {f : DeviceProgress → DeviceProgress}
    (h : t.CountsTo n place k b) (hf : ∀ p, (f p).completedSlots = p.completedSlots) :
    (t.updateDevice f).Abides ((wording t.run n).terms (.tour n place t.deviceId))
      (Task.Upon (fun b => b.Open t.run (.tour n place t.deviceId)) fun _ b =>
        t.CountsTo n place k b) b := by
  have honly := RunTask.only_call (H := (· = .update fun s => s.updateDevice t.deviceId f)) rfl
  apply (h.abides_only honly _).upon (fun _ h => h) fun _ _ h => h.2
  rintro _ rfl
  exact ⟨RunCall.steady_updateDevice _ _, rfl, fun _ _ => .change hf⟩

/-- A slot is counted once, whether it was run or skipped. -/
theorem CountsTo.abides_settle {slot : ScenarioResult} (h : t.CountsTo n place k b)
    (hk : k < t.run.request.slots) :
    (t.settle d slot).Abides ((wording t.run n).terms (.tour n place t.deviceId))
      (Task.Upon (fun b => b.Open t.run (.tour n place t.deviceId)) fun _ b =>
        t.CountsTo n place (k + 1) b) b := by
  have hcount : (RunTask.update fun s => s.completeSlot t.deviceId).Abides
      ((wording t.run n).terms (.tour n place t.deviceId))
      (Task.Upon (fun b => b.Open t.run (.tour n place t.deviceId)) fun _ b =>
        t.CountsTo n place (k + 1) b) b := by
    have hmay : b.MayCount t.run (.tour n place t.deviceId)
        (.update fun s => s.completeSlot t.deviceId) := .count (h.2.symm ▸ hk)
    apply Accord.abides_instant rfl ⟨h.1, RunCall.steady_completeSlot _, hmay⟩
    intro reply hreply
    obtain ⟨a, rfl⟩ := Option.isSome_iff_exists.1 (hreply.isSome rfl)
    refine ⟨h.1.call _, ?_⟩
    rw [Books.own_call, Calls.slots_append, h.2]
    rfl
  rw [settle]
  exact hcount.bind fun _ _ hb => hb

/-- A slot that is skipped is counted. -/
theorem words_skip (h : t.CountsTo n place k b) (hk : k < t.run.request.slots) :
    (t.skip g k d).Abides ((wording t.run n).terms (.tour n place t.deviceId))
      (Task.Upon (fun b => b.Open t.run (.tour n place t.deviceId)) fun _ b =>
        t.CountsTo n place (k + 1) b) b := by
  rw [skip]
  apply Task.Abides.now_bind
  intro ms
  exact h.abides_settle hk

/-- A slot that is run is told with its number, and counted when it is complete. -/
theorem words_visit (h : t.CountsTo n place k b) (hk : k < t.run.request.slots) :
    (t.visit g k d).Abides ((wording t.run n).terms (.tour n place t.deviceId))
      (Task.Upon (fun b => b.Open t.run (.tour n place t.deviceId)) fun _ b =>
        t.CountsTo n place (k + 1) b) b := by
  have hemit : ∀ {e : Event}, (∀ report, e ≠ .progress report) →
      (RunTask.emit e).Only RunCall.Mute fun _ => True := fun he =>
    RunTask.only_call (RunCall.mute_emit he)
  simp only [visit, announce, bind_assoc]
  apply (h.abides_updateDevice fun _ => by rfl).bind
  intro _ b hb
  apply Task.Abides.now_bind
  intro ms
  apply (hb.abides_mute (hemit fun _ h => by cases h)).bind
  rintro _ b ⟨-, hb⟩
  have hask : (Task.ask RunCall.progress).Only RunCall.Mute fun _ => True :=
    RunTask.only_call ⟨rfl, fun _ h => by cases h⟩
  apply (hb.abides_mute hask).bind
  rintro percent b ⟨-, hb⟩
  apply (hb.abides_only (RunTask.only_call (H := fun c => ∃ report, c = .emit (.progress report) ∧
    WordShows report.scenarioProgress.current.toNat (k + 1)) ⟨_, rfl, wordShows_ofNat _⟩) _).bind
  · rintro _ b ⟨-, hb⟩
    apply (hb.abides_mute ((only_film k).weaken fun _ hc => hc.1.mute)).bind
    rintro result b ⟨-, hb⟩
    apply (hb.abides_mute (hemit fun _ h => by cases h)).bind
    rintro _ b ⟨-, hb⟩
    apply (hb.abides_settle hk).bind
    intro d b hb
    rw [rest]
    split
    · apply Task.Abides.sleep_bind
      intro b' stopped hd _
      exact hb.drift hd
    · exact hb
  · rintro _ ⟨report, rfl, hcurrent⟩
    exact ⟨RunCall.steady_of_changes rfl, rfl, fun b hb =>
      .tell (hb.2.symm ▸ hk) (hb.2.symm ▸ hcurrent)⟩

/-- All slots of a tour are counted. -/
theorem words_work (hsize : t.size = t.run.request.slots) (h : t.CountsTo n place 0 b) :
    (t.work d).Abides ((wording t.run n).terms (.tour n place t.deviceId))
      (Task.Upon (fun b => b.Open t.run (.tour n place t.deviceId)) fun _ b =>
        t.CountsTo n place t.size b) b := by
  have hask : ∀ {c : RunCall}, c.Mute →
      (Task.ask c : RunTask c.Reply).Only RunCall.Mute fun _ => True := RunTask.only_call
  rw [work]
  apply (h.abides_mute (hask ⟨rfl, fun _ h => by cases h⟩)).bind
  rintro _ b ⟨-, hb⟩
  have hslots : (t.slots t.size 0 d).Abides ((wording t.run n).terms (.tour n place t.deviceId))
      (Task.Upon (fun b => b.Open t.run (.tour n place t.deviceId)) fun _ b =>
        t.CountsTo n place t.size b) b :=
    t.abides_slots (I := fun k _ b => t.CountsTo n place k b)
      (fun hk _ h _ => words_skip h (hsize ▸ hk)) (fun hk _ h _ => words_visit h (hsize ▸ hk))
      (Nat.zero_add _) hb
  apply hslots.ensuring
  · intro b ho
    have hb : t.CountsTo n place (Calls.slots (b.own (.tour n place t.deviceId))) b := ⟨ho, rfl⟩
    exact (hb.abides_mute (hask ⟨rfl, fun _ h => by cases h⟩)).upon (fun _ h => h)
      fun _ _ h => h.2.1
  · intro d b hb
    exact (hb.abides_mute (hask ⟨rfl, fun _ h => by cases h⟩)).upon (fun _ h => h)
      fun _ _ h => h.2

/-- A tour that ends with a result has counted all of its slots. -/
theorem words_conduct (hsize : t.size = t.run.request.slots) (h : t.CountsTo n place 0 b) :
    t.conduct.Abides ((wording t.run n).terms (.tour n place t.deviceId))
      (Task.Upon (fun b => b.Open t.run (.tour n place t.deviceId)) fun r b =>
        b.Open t.run (.tour n place t.deviceId) ∧
          ∀ d, r = .ok d → t.CountsTo n place t.size b) b := by
  have hdevice : ∀ {α : Type} (u : DeviceTask α),
      (RunTask.onDevice u).Only RunCall.Mute fun _ => True := fun u =>
    (RunTask.only_onDevice u).weaken fun _ h => h.ofStep.ofSlot.mute
  have hemit : ∀ {e : Event}, (∀ report, e ≠ .progress report) →
      (RunTask.emit e).Only RunCall.Mute fun _ => True := fun he =>
    RunTask.only_call (RunCall.mute_emit he)
  rw [conduct]
  apply (h.abides_mute (hdevice _)).bind
  rintro r b ⟨-, hb⟩
  cases r with
  | error e => exact ⟨hb.1, fun d hd => by cases hd⟩
  | ok environment =>
    apply (hb.abides_mute (hdevice _)).bind
    rintro appInfo b ⟨-, hb⟩
    apply (hb.abides_updateDevice fun _ => by rfl).bind
    intro _ b hb
    apply Task.Abides.now_bind
    intro ms
    apply (hb.abides_mute (hemit fun _ h => by cases h)).bind
    rintro _ b ⟨-, hb⟩
    apply (words_work hsize hb).bind
    intro d b hb
    apply (hb.abides_updateDevice fun _ => by rfl).bind
    intro _ b hb
    apply (hb.abides_mute (hemit fun _ h => by cases h)).bind
    rintro _ b ⟨-, hb⟩
    exact ⟨hb.1, fun _ _ => hb⟩

end Tour

namespace RunTask

variable {run : RunState} {n : Nat} {b : Books}

/-- To collect the results is to write devices off. -/
theorem only_collect_writeOff {H : RunCall → Prop} (hH : ∀ id, H (.update fun s => s.writeOff id))
    (entries : List (String × Option TourResult)) : (collect entries).Only H fun _ => True := by
  induction entries using collect.induct with
  | case1 => trivial
  | case2 id result rest ih =>
    rw [collect]
    exact Task.only_bind.2 (ih.mono fun _ _ => trivial)
  | case3 id outcome rest houtcome ih =>
    rw [collect]
    · exact Task.only_bind.2 (only_update.2 ⟨hH id, fun _ => ih⟩)
    · exact houtcome

/-- A call that a lead may make once all tours have ended. -/
def Closing (run : RunState) (n : Nat) (c : RunCall) : Prop :=
  c.Steady ∧ ∀ b : Books, b.crew.isComplete = true → b.MayCount run (.lead n) c

/-- A mute call may be made once all tours have ended. -/
theorem closing_of_mute {c : RunCall} (h : c.Mute) : Closing run n c :=
  ⟨RunCall.steady_of_changes h.1, fun _ _ => .mute h⟩

/-- The status may be set once all tours have ended. -/
theorem closing_withStatus (status : RunStatus) :
    Closing run n (.update fun s => s.withStatus status) :=
  ⟨RunCall.steady_withStatus status, fun _ _ => .status⟩

/-- A device may be written off once all tours have ended. -/
theorem closing_writeOff (id : String) : Closing run n (.update fun s => s.writeOff id) :=
  ⟨RunCall.steady_writeOff id, fun _ => .writeOff⟩

/-- All tours have ended, and nothing that a lead does now changes that. -/
theorem words_closing {α : Type} {t : RunTask α} {P : α → Prop} (ht : t.Only (Closing run n) P)
    (hb : b.crew.isComplete = true) :
    t.Abides ((wording run n).terms (.lead n)) (Task.Upon (fun _ => True) fun _ _ => True) b := by
  apply (Accord.abides_only (A := wording run n) (l := .lead n)
    (J := fun b => b.crew.isComplete = true) ht hb _ _).upon (fun _ _ => trivial)
    fun _ _ _ => trivial
  · intro b b' hb hd
    exact Books.isComplete_of_tally (hd.1.tally rfl hb) ▸ hb
  · intro c b hc hb
    exact ⟨⟨trivial, hc.1, hc.2 b hb⟩, by simpa using hb⟩

/-- A lead writes devices off when all tours have ended, and counts nothing else. -/
theorem words_lead (hs : b.Sound run) :
    (lead run).Abides ((wording run n).terms (.lead n))
      (Task.Upon (fun _ => True) fun _ _ => True) b := by
  have hemit : ∀ {e : Event}, (∀ report, e ≠ .progress report) →
      (emit e).Only RunCall.Mute fun _ => True := fun he => only_call (RunCall.mute_emit he)
  have hmute : ∀ (c : RunCall) (b : Books), c.Mute → c.Steady ∧ b.MayCount run (.lead n) c :=
    fun c b hc => ⟨RunCall.steady_of_changes hc.1, .mute hc⟩
  have hbegun := only_call (H := (· = .update fun s => s.withStatus .running)) rfl
  rw [lead]
  apply (abides_sound (A := wording run n) hbegun _ hs).bind
  · intro _ b hs
    apply Task.Abides.now_bind
    intro ms
    apply (abides_sound (hemit fun _ h => by cases h) hmute hs).bind
    intro _ b hs
    apply (abides_tours (fun b => (hmute _ b ⟨rfl, fun _ h => by cases h⟩).2) hs).bind
    rintro reports b ⟨-, hcomplete, -⟩
    apply words_closing (P := fun _ => True) _ hcomplete
    simp only [Task.only_bind]
    apply (only_collect_writeOff closing_writeOff _).mono
    intro devices _ stopped ms
    refine only_update.2 ⟨closing_withStatus _, fun _ => ?_⟩
    refine Task.only_ask.2 ⟨closing_of_mute ⟨rfl, fun _ h => by cases h⟩, fun _ => ?_⟩
    refine Task.only_ask.2 ⟨closing_of_mute ⟨rfl, fun _ h => by cases h⟩, fun _ => ?_⟩
    refine only_emit.2 ⟨closing_of_mute (RunCall.mute_emit fun _ h => ?_), fun _ => trivial⟩
    cases stopped <;> cases h
  · rintro _ b rfl
    exact ⟨RunCall.steady_withStatus _, .status⟩

end RunTask

/-- The tasks of a run count its slots in words from the beginning. -/
theorem wording_joined {run : RunState} (hfresh : run.Fresh) (n : Nat) {scenarios : List Graph}
    (hlen : scenarios.length = run.request.scenarioIds.length) :
    (wording run n).Joined scenarios where
  blank := Books.blank_worded hfresh
  lead hd := (RunTask.words_lead (hd.1.sound (Books.blank_sound run))).mono
    fun _ _ _ => by trivial
  tour := by
    rintro t place b rfl rfl hid - hd
    refine ⟨.mute ⟨rfl, fun _ h => by cases h⟩, fun {b'} hd' => ?_⟩
    have hblank : t.CountsTo n place 0 (Books.blank t.run) := ⟨Books.blank_open hid, rfl⟩
    have hb := hblank.drift hd
    have hnote : t.CountsTo n place 0 (b.note (.tour n place t.deviceId) .begun) :=
      ⟨hb.1.call .begun, (Books.slots_own_call (c := .begun) rfl _).trans hb.2⟩
    have hsize : t.size = t.run.request.slots := by rw [Tour.size, hlen, Request.slots]
    apply (Tour.words_conduct hsize (hnote.drift hd')).mono
    intro b r hr
    cases r with
    | none => exact ⟨hr, fun d hd => by cases hd⟩
    | some r =>
      refine ⟨hr.1, fun d hd => ?_⟩
      obtain rfl : r = .ok d := by simpa using hd
      exact (hr.2 d rfl).2.trans hsize

end DeviceSuite
