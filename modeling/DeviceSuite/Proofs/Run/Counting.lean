import DeviceSuite.Proofs.Run.Reckoning
import DeviceSuite.Proofs.Run.Touring
import DeviceSuite.Proofs.Session.Watch

/-!
# Counting the slots

The tasks of a run reckon its slots: a tour knows how many slots it has counted, which one it has in
hand and what its device shows, and the lead writes off the devices of all tours without a result.
-/

namespace DeviceSuite

namespace RunCall

/-- The calls of a slot leave the slot in hand alone. -/
theorem OfSlot.spare {c : RunCall} (h : c.OfSlot) : c.Spare := by
  cases c with
  | emit e => cases e <;> first | exact fun _ => rfl | cases h
  | _ => exact fun _ => rfl

/-- The calls of a slot leave the state of the run alone. -/
theorem OfSlot.changes {c : RunCall} (h : c.OfSlot) : c.changes = false := by
  cases c <;> first | rfl | cases h

/-- To work on a slot is to reach beyond the books. -/
theorem Works.isOutward {c : RunCall} (h : c.Works) : c.isOutward = true := by
  cases c <;> first | exact h.2 | rfl

/-- To keep the books is not to work on a slot. -/
theorem not_works_of_bookkeeping {c : RunCall} (h : c.isOutward = false) : ¬ c.Works := fun hc => by
  rw [hc.isOutward] at h
  cases h

end RunCall

variable {run : RunState} {n place k k' : Nat} {scenarios : List Graph} {id : String} {b b' : Books}
  {hand hand' : Hand} {p p' : DeviceProgress} {c : RunCall} {X : Books → Prop}
  {hcap : ∀ id, run.request.deviceIds.count id * run.request.slotsPerDevice.toNat < UInt32.size}

namespace Books

/-- A tour that has not ended has counted so many slots, and its device shows so much if it is
requested once. -/
structure Held (run : RunState) (n place : Nat) (id : String) (k : Nat) (hand : Hand)
    (p : DeviceProgress) (b : Books) : Prop where
  still : b.Open run (.tour n place id)
  share : b.share place = k
  hand : Calls.hand (b.own (.tour n place id)) = hand
  shows : run.request.deviceIds.Nodup → b.state.device? id = some p

/-- A tour that has not ended has not counted all of its slots. -/
def Short (run : RunState) (n place : Nat) (id : String) (b : Books) : Prop :=
  ∃ k hand p, b.Held run n place id k hand p ∧ k < run.request.slotsPerDevice.toNat

/-- A tour has so many slots behind it, and none in hand. -/
def Stood (run : RunState) (n place : Nat) (id : String) (k : Nat) (b : Books) : Prop :=
  ∃ p, b.Held run n place id k .free p ∧ p.status = .running ∧ p.completedSlots = .ofNat k

/-- A tour is about to end. -/
def Done (run : RunState) (n place : Nat) (id : String) (b : Books) : TourResult → Prop
  | .ok _ => ∃ p, b.Held run n place id run.request.slotsPerDevice.toNat .free p ∧
    (p.status = .completed ∨ p.status = .partiallyFailed)
  | .error _ => b.Short run n place id

/-- A tour with slots left has not counted all of them. -/
theorem Held.short (h : b.Held run n place id k hand p)
    (hk : k < run.request.slotsPerDevice.toNat) : b.Short run n place id :=
  ⟨k, hand, p, h, hk⟩

/-- A tour that is short of slots may end without a result. -/
theorem Short.ends (h : b.Short run n place id) {ending : Option RoleResult}
    (hnot : ¬ Arrived (RoleResult.tour? ending)) :
    b.Open run (.tour n place id) ∧ b.EndsReckoned run (.tour n place id) ending := by
  obtain ⟨k, hand, p, hp, hk⟩ := h
  exact ⟨hp.still, fun harrived => absurd harrived hnot, fun _ => hp.share.symm ▸ hk⟩

/-- A tour that is done may end with its result. -/
theorem Done.ends {r : TourResult} (h : b.Done run n place id r) :
    b.Open run (.tour n place id) ∧ b.EndsReckoned run (.tour n place id) (some (.tour r)) := by
  cases r with
  | error e =>
    apply Short.ends h
    rintro ⟨d, hd⟩
    cases hd
  | ok d =>
    obtain ⟨p, hp, hrest⟩ := h
    exact ⟨hp.still, fun _ => ⟨hp.share, fun hnodup => ⟨p, hp.shows hnodup, hrest⟩⟩,
      fun hnot => absurd ⟨d, rfl⟩ hnot⟩

/-- What a tour has counted and shows stays as it is while the others go on. -/
theorem Held.drift (h : b.Held run n place id k hand p)
    (hd : ((reckoning run n scenarios hcap).terms (.tour n place id)).drifts b b') :
    b'.Held run n place id k hand p := by
  refine ⟨hd.1.still h.still, (hd.1.share h.still place rfl).trans h.share, ?_, ?_⟩
  · rw [hd.1.own h.still]
    exact h.hand
  · intro hnodup
    exact (hd.2.2 h.still hnodup).trans (h.shows hnodup)

/-- A call that is no change of the state changes neither shares nor what devices show. -/
theorem Held.note (h : b.Held run n place id k hand p) (hc : c.changes = false) :
    ((b.note (.tour n place id) c).answered (.tour n place id) c).Held run n place id k
      (hand.after c) p := by
  refine ⟨h.still.call c, ?_, ?_, ?_⟩
  · cases c <;> first | exact h.share | cases hc
  · rw [own_call, Calls.hand_append, h.hand]
  · intro hnodup
    cases c <;> first | exact h.shows hnodup | cases hc

/-- A call that is answered at once does not crash. -/
theorem Held.abides_instant (h : b.Held run n place id k hand p) (hp : c.pace = .instant)
    (hc : c.Steady) (hmay : b.MayReckon run scenarios (.tour n place id) c)
    (hnext : ((b.note (.tour n place id) c).answered (.tour n place id) c).Held run n place id
      k' hand' p') :
    (Task.ask c).Abides ((reckoning run n scenarios hcap).terms (.tour n place id))
      (Task.Upon X fun _ b => b.Held run n place id k' hand' p') b := by
  apply Accord.abides_instant hp ⟨h.still, hc, hmay⟩
  intro reply hreply
  obtain ⟨a, rfl⟩ := Option.isSome_iff_exists.1 (hreply.isSome hp)
  exact hnext

/-- A tour may make any call that leaves the state and the slot in hand alone, and works on a slot
only with one in hand. -/
theorem Held.mayReckon (h : b.Held run n place id k hand p) (hchanges : c.changes = false)
    (hspare : c.Spare) (hworks : c.Works → hand.isFull = true) :
    b.MayReckon run scenarios (.tour n place id) c := by
  have hworks' : c.Works → (Calls.hand (b.own (.tour n place id))).isFull = true := fun hc =>
    h.hand.symm ▸ hworks hc
  cases c with
  | update f => cases hchanges
  | emit e => cases e <;> first | exact hworks' | cases hspare (.begun id 0)
  | _ => exact hworks'

/-- What leaves the state and the slot in hand alone changes nothing. -/
theorem Held.abides_only {α : Type} {t : RunTask α} {H : RunCall → Prop} {P : α → Prop}
    (h : b.Held run n place id k hand p) (ht : t.Only H P)
    (hk : k < run.request.slotsPerDevice.toNat)
    (hH : ∀ c, H c → c.Steady ∧ c.changes = false ∧ c.Spare ∧
      (c.Works → hand.isFull = true)) :
    t.Abides ((reckoning run n scenarios hcap).terms (.tour n place id))
      (Task.Upon (fun b => b.Short run n place id) fun a b =>
        P a ∧ b.Held run n place id k hand p) b := by
  apply (Accord.abides_only (J := fun b => b.Held run n place id k hand p) ht h
    (fun b b' h hd => h.drift hd) _).upon (fun _ h => h.short hk) fun _ _ h => h
  intro c b hc h
  obtain ⟨hsteady, hchanges, hspare, hworks⟩ := hH c hc
  have hnote := h.note hchanges
  rw [hspare hand] at hnote
  exact ⟨⟨h.still, hsteady, h.mayReckon hchanges hspare hworks⟩, hnote⟩

/-- A call that only keeps the books, and is answered at once, changes at most the slot in hand. -/
theorem Held.abides_note (h : b.Held run n place id k hand p) (hp : c.pace = .instant)
    (hchanges : c.changes = false) (hout : c.isOutward = false)
    (hprogress : ∀ report, c ≠ .emit (.progress report)) :
    (Task.ask c).Abides ((reckoning run n scenarios hcap).terms (.tour n place id))
      (Task.Upon X fun _ b => b.Held run n place id k (hand.after c) p) b := by
  have hworks : ¬ c.Works := RunCall.not_works_of_bookkeeping hout
  have hmay : b.MayReckon run scenarios (.tour n place id) c := by
    cases c with
    | update f => cases hchanges
    | emit e =>
      cases e <;> first | exact absurd rfl (hprogress _) | exact fun h => absurd h hworks
    | _ => exact fun h => absurd h hworks
  exact h.abides_instant hp (RunCall.steady_of_changes hchanges) hmay (h.note hchanges)

/-- An event that reports no progress changes at most what is in hand. -/
theorem Held.abides_emit {e : Event} (h : b.Held run n place id k hand p)
    (he : ∀ report, e ≠ .progress report) :
    (RunTask.emit e).Abides ((reckoning run n scenarios hcap).terms (.tour n place id))
      (Task.Upon X fun _ b => b.Held run n place id k (hand.after (.emit e)) p) b :=
  h.abides_note rfl rfl rfl fun report heq => he report (RunCall.emit.inj heq)

/-- A tour without a slot in hand changes what its device shows. -/
theorem Held.abides_updateDevice {f : DeviceProgress → DeviceProgress}
    (h : b.Held run n place id k .free p) (hf : ∀ p, (f p).completedSlots = p.completedSlots) :
    (RunTask.update fun s => s.updateDevice id f).Abides
      ((reckoning run n scenarios hcap).terms (.tour n place id))
      (Task.Upon X fun _ b => b.Held run n place id k .free (f p)) b := by
  have hshare : (b.book (.tour n place id) fun s => s.updateDevice id f).share = b.share :=
    share_book_of_eq rfl
  apply h.abides_instant rfl (RunCall.steady_updateDevice id f) ⟨h.hand, .inl ⟨f, hf, rfl⟩⟩
  constructor
  case still => exact h.still.call _
  case share => exact (congrFun hshare place).trans h.share
  case hand =>
    rw [own_call, Calls.hand_append, h.hand]
    rfl
  case shows =>
    intro hnodup
    have hp : b.state.device? id = some p := h.shows hnodup
    have hself := b.state.device?_updateDevice id id f
    rw [if_pos rfl, hp] at hself
    exact hself

/-- A tour without a slot in hand counts one. -/
theorem Held.abides_completeSlot (h : b.Held run n place id k .free p)
    (hk : k < run.request.slotsPerDevice.toNat) :
    (RunTask.update fun s => s.completeSlot id).Abides
      ((reckoning run n scenarios hcap).terms (.tour n place id))
      (Task.Upon X fun _ b => b.Held run n place id (k + 1) .free
        { p with completedSlots := p.completedSlots + 1 }) b := by
  have hlt : b.share place < run.request.slotsPerDevice.toNat := h.share.symm ▸ hk
  apply h.abides_instant rfl (RunCall.steady_completeSlot id) ⟨h.hand, .inr ⟨hlt, rfl⟩⟩
  constructor
  case still => exact h.still.call _
  case share =>
    have hshare : (b.book (.tour n place id) fun s => s.completeSlot id).share =
        bump b.share place := share_book_completeSlot
    rw [← h.share]
    exact (congrFun hshare place).trans (if_pos rfl)
  case hand =>
    rw [own_call, Calls.hand_append, h.hand]
    rfl
  case shows =>
    intro hnodup
    exact b.state.device?_completeSlot id (h.shows hnodup)

/-- A tour takes a slot in hand that its device shows. -/
theorem Held.abides_progress {report : ProgressReport} {g : Graph}
    (h : b.Held run n place id k (.begun g.id (.ofNat (k / scenarios.length + 1)))
      (slotProgress scenarios.length k))
    (hg : scenarios[k % scenarios.length]? = some g) (hk : k < run.request.slotsPerDevice.toNat)
    (hreport : report.scenarioProgress.current = .ofNat (k + 1)) :
    (RunTask.emit (.progress report)).Abides
      ((reckoning run n scenarios hcap).terms (.tour n place id))
      (Task.Upon X fun _ b => b.Held run n place id k
        (.holds g.id (.ofNat (k / scenarios.length + 1)) k)
        (slotProgress scenarios.length k)) b := by
  have hcurrent : report.scenarioProgress.current.toNat - 1 = k := by
    have hsize := run.request.slotsPerDevice.toNat_lt
    have hfits : k + 1 < 2 ^ 32 := by omega
    rw [hreport, UInt32.toNat_ofNat', Nat.mod_eq_of_lt hfits, Nat.add_sub_cancel]
  have hshowing : b.Showing run scenarios id g.id (.ofNat (k / scenarios.length + 1)) k :=
    ⟨hk, by rw [hg, Option.map_some], rfl, h.shows⟩
  have hnote := h.note (c := .emit (.progress report)) rfl
  rw [Hand.after, hcurrent] at hnote
  exact h.abides_instant rfl (RunCall.steady_of_changes rfl)
    ⟨g.id, _, h.hand, hcurrent.symm ▸ hshowing⟩ hnote

end Books

namespace Tour

variable (t : Tour) {g : Graph} {d : DeviceResult}
  {cap : ∀ id, t.run.request.deviceIds.count id * t.run.request.slotsPerDevice.toNat < UInt32.size}

/-- A slot is counted once, whether it was run or skipped. -/
theorem counts_settle {slot : ScenarioResult}
    (h : b.Held t.run n place t.deviceId k .free p) (hstatus : p.status = .running)
    (hdone : p.completedSlots = .ofNat k) (hk : k < t.run.request.slotsPerDevice.toNat) :
    (t.settle d slot).Abides ((reckoning t.run n t.scenarios cap).terms (.tour n place t.deviceId))
      (Task.Upon X fun _ b => b.Stood t.run n place t.deviceId (k + 1)) b := by
  rw [settle]
  apply (h.abides_completeSlot hk).bind
  intro _ b hb
  exact ⟨_, hb, hstatus, (congrArg (· + 1) hdone).trans (UInt32.ofNat_add k 1).symm⟩

/-- A slot that is skipped is counted. -/
theorem counts_skip (h : b.Stood t.run n place t.deviceId k)
    (hk : k < t.run.request.slotsPerDevice.toNat) :
    (t.skip g k d).Abides ((reckoning t.run n t.scenarios cap).terms (.tour n place t.deviceId))
      (Task.Upon X fun _ b => b.Stood t.run n place t.deviceId (k + 1)) b := by
  obtain ⟨p, hp, hstatus, hdone⟩ := h
  rw [skip]
  apply Task.Abides.now_bind
  intro ms
  exact t.counts_settle hp hstatus hdone hk

/-- While a slot is run it is in hand, and it is counted when it is complete. -/
theorem counts_visit (hg : t.scenarios[t.scenarioIndex k]? = some g)
    (h : b.Stood t.run n place t.deviceId k)
    (hk : k < t.run.request.slotsPerDevice.toNat) :
    (t.visit g k d).Abides
      ((reckoning t.run n t.scenarios cap).terms (.tour n place t.deviceId))
      (Task.Upon (fun b => b.Short t.run n place t.deviceId) fun _ b =>
        b.Stood t.run n place t.deviceId (k + 1)) b := by
  obtain ⟨p, hp, hstatus, hdone⟩ := h
  have hshow : { p with scenarioIndex := .ofNat (t.scenarioIndex k), iteration := t.iteration k } =
      slotProgress t.scenarios.length k := by
    rw [slotProgress, ← hstatus, ← hdone]
    rfl
  simp only [visit, announce, updateDevice, bind_assoc]
  apply (hp.abides_updateDevice fun _ => by rfl).bind
  intro _ b hb
  rw [hshow] at hb
  apply Task.Abides.now_bind
  intro ms
  apply (hb.abides_emit fun _ h => by cases h).bind
  intro _ b hb
  apply (hb.abides_note (c := .progress) rfl rfl rfl fun _ h => by cases h).bind
  intro percent b hb
  apply (hb.abides_progress hg hk rfl).bind
  intro _ b hb
  have hslot : ∀ c : RunCall, t.Films c → c.Steady ∧ c.changes = false ∧ c.Spare ∧
      (c.Works → (Hand.holds g.id (t.iteration k) k).isFull = true) := fun c hc =>
    ⟨hc.1.steady, hc.1.changes, hc.1.spare, fun _ => rfl⟩
  apply (hb.abides_only (only_film k) hk hslot).bind
  intro result b hb
  apply (hb.2.abides_emit fun _ h => by cases h).bind
  intro _ b hb
  apply (t.counts_settle hb rfl rfl hk).bind
  intro d b hb
  rw [rest]
  split
  · apply Task.Abides.sleep_bind
    intro b' stopped hd _
    obtain ⟨p, hp, hrest⟩ := hb
    exact ⟨p, hp.drift hd, hrest⟩
  · exact hb

/-- All slots of a tour are counted. -/
theorem counts_work (hsize : t.size = t.run.request.slotsPerDevice.toNat)
    (h : b.Stood t.run n place t.deviceId 0) :
    (t.work d).Abides ((reckoning t.run n t.scenarios cap).terms (.tour n place t.deviceId))
      (Task.Upon (fun b => b.Short t.run n place t.deviceId) fun _ b =>
        b.Stood t.run n place t.deviceId t.size) b := by
  obtain ⟨p, hp, hrest⟩ := h
  rw [work]
  apply (hp.abides_note (c := .register t.context) rfl rfl rfl fun _ h => by cases h).bind
  intro _ b hb
  have hslots : (t.slots t.size 0 d).Abides
      ((reckoning t.run n t.scenarios cap).terms (.tour n place t.deviceId))
      (Task.Upon (fun b => b.Short t.run n place t.deviceId) fun _ b =>
        b.Stood t.run n place t.deviceId t.size) b :=
    t.abides_slots (I := fun k _ b => b.Stood t.run n place t.deviceId k)
      (fun hk _ h _ => t.counts_skip h (hsize ▸ hk))
      (fun hk hg h _ => t.counts_visit hg h (hsize ▸ hk)) (Nat.zero_add _) ⟨p, hb, hrest⟩
  apply hslots.ensuring
  · intro b hb
    obtain ⟨k, hand, p, hp, hk⟩ := hb
    exact (hp.abides_note (c := .unregister t.context) rfl rfl rfl fun _ h => by cases h).upon
      (fun _ h => h) fun _ _ h => h.short hk
  · intro d b hb
    obtain ⟨p, hp, hrest⟩ := hb
    exact (hp.abides_note (c := .unregister t.context) rfl rfl rfl fun _ h => by cases h).upon
      (fun _ h => h) fun _ _ h => ⟨p, h, hrest⟩

/-- A tour that ends with a result has counted all of its slots, and any other has not. -/
theorem counts_conduct (hsize : t.size = t.run.request.slotsPerDevice.toNat) (hpos : 0 < t.size)
    (h : b.Held t.run n place t.deviceId 0 .free .initial) :
    t.conduct.Abides ((reckoning t.run n t.scenarios cap).terms (.tour n place t.deviceId))
      (Task.Upon (fun b => b.Short t.run n place t.deviceId) fun r b =>
        b.Done t.run n place t.deviceId r) b := by
  have hask : ∀ c b, b.Held t.run n place t.deviceId 0 .free .initial →
      ¬ (RunCall.device c).Works → (RunTask.onDevice (Task.ask c)).Abides
        ((reckoning t.run n t.scenarios cap).terms (.tour n place t.deviceId))
        (Task.Upon (fun b => b.Short t.run n place t.deviceId) fun _ b =>
          b.Held t.run n place t.deviceId 0 .free .initial) b := by
    intro c b h hc
    apply RunTask.abides_onDevice_ask
    have honly := RunTask.only_call (H := (· = .device c)) rfl
    apply (h.abides_only honly (hsize ▸ hpos) _).upon (fun _ h => h) fun _ _ h => h.2
    rintro _ rfl
    exact ⟨RunCall.steady_of_outward rfl, rfl, fun _ => rfl, fun h => absurd h hc⟩
  rw [conduct]
  apply (hask .environment b h id).bind
  intro r b hb
  cases r with
  | error e => exact hb.short (hsize ▸ hpos)
  | ok environment =>
    apply (hask .appInfo b hb id).bind
    intro appInfo b hb
    apply (hb.abides_updateDevice fun _ => by rfl).bind
    intro _ b hb
    apply Task.Abides.now_bind
    intro ms
    apply (hb.abides_emit fun _ h => by cases h).bind
    intro _ b hb
    apply (t.counts_work hsize ⟨_, hb, rfl, rfl⟩).bind
    intro d b hb
    obtain ⟨p, hp, -⟩ := hb
    apply (hp.abides_updateDevice fun _ => by rfl).bind
    intro _ b hb
    apply (hb.abides_emit fun _ h => by cases h).bind
    intro _ b hb
    refine ⟨_, hsize ▸ hb, ?_⟩
    dsimp only
    split
    · exact .inr rfl
    · exact .inl rfl

end Tour

end DeviceSuite
