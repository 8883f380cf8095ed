import DeviceSuite.Proofs.Run.Accord
import DeviceSuite.Proofs.Run.Slot
import DeviceSuite.Proofs.Run.Tally

/-!
# Reckoning the slots

What the state of a run says of its slots is reckoned from what its tours have counted: each device
has as many slots behind it as the tours that are its own have counted, unless it has been written
off, and what the run has counted and what its devices still lack add up to the same sum before and
after every change. A device that is requested once shows the slot that it has in hand.
-/

namespace DeviceSuite

/-- What a device shows while it works on a slot; `width` is the number of scenarios. -/
def slotProgress (width k : Nat) : DeviceProgress :=
  ⟨.ofNat (k % width), .ofNat (k / width + 1), .running, .ofNat k⟩

/-- What a tour has in hand, as it tells: no slot, one of a scenario in a repeat that it has told to
begin, or one that it works on, with its number. -/
inductive Hand where
  | free
  | begun (scenarioId : String) (iteration : UInt32)
  | holds (scenarioId : String) (iteration : UInt32) (slot : Nat)
  deriving DecidableEq

namespace Hand

/-- A slot is in hand from the report of its number until it is told to be complete. -/
def after : Hand → RunCall → Hand
  | _, .emit (.scenarioStart _ _ scenarioId _ iteration _) => .begun scenarioId iteration
  | .begun scenarioId iteration, .emit (.progress report) =>
    .holds scenarioId iteration (report.scenarioProgress.current.toNat - 1)
  | _, .emit (.scenarioComplete _ _ _) => .free
  | hand, _ => hand

/-- Whether there is a slot to work on. -/
def isFull : Hand → Bool
  | holds _ _ _ => true
  | _ => false

end Hand

namespace RunCall

/-- A call that leaves the slot in hand alone. -/
def Spare (c : RunCall) : Prop := ∀ hand : Hand, hand.after c = hand

/-- The calls of the work on a slot. -/
def Works : RunCall → Prop
  | device .environment | device .appInfo => False
  | c => c.OfSlot ∧ c.isOutward = true

end RunCall

namespace Calls

/-- What a tour has in hand. -/
def hand (own : Calls) : Hand := own.foldl (fun hand e => hand.after e.call) .free

variable {own : Calls} {e : Begun RunCall Role}

/-- Each call may change what is in hand. -/
theorem hand_append (own : Calls) (e : Begun RunCall Role) :
    hand (own ++ [e]) = (hand own).after e.call := by
  rw [hand, List.foldl_append, List.foldl_cons, List.foldl_nil, hand]

/-- A tour works on a slot only with a slot in hand. -/
def Handy (own : Calls) : Prop :=
  ∀ (earlier : Calls) (e : Begun RunCall Role), earlier ++ [e] <+: own → e.call.Works →
    (hand earlier).isFull = true

/-- Who calls nothing works on no slot. -/
theorem handy_nil : Handy [] :=
  fun _ _ h => absurd (List.prefix_nil.1 h) (List.concat_ne_nil _ _)

/-- A tour works with a slot in hand if the last call does. -/
theorem Handy.append (h : Handy own) (he : e.call.Works → (hand own).isFull = true) :
    Handy (own ++ [e]) := by
  intro earlier e' hprefix hworks
  rcases List.prefix_concat_iff.1 hprefix with heq | hold
  · obtain ⟨rfl, hlast⟩ := List.append_inj' heq rfl
    exact he (List.singleton_inj.1 hlast ▸ hworks)
  · exact h earlier e' hold hworks

end Calls

/-- A tour has ended with a result. -/
def Arrived (outcome : Option TourResult) : Prop := ∃ d, outcome = some (.ok d)

namespace Books

variable (run : RunState) (n : Nat) (scenarios : List Graph)

/-- A device has come to the end of its run. -/
def AtRest (b : Books) (id : String) : Prop :=
  ∃ p, b.state.device? id = some p ∧ (p.status = .completed ∨ p.status = .partiallyFailed)

/-- A device has been written off. -/
def WrittenOff (b : Books) (id : String) : Prop :=
  ∃ p, b.state.device? id = some p ∧ p.completedSlots = run.request.slotsPerDevice ∧
    p.status = .partiallyFailed

/-- All tours have ended, and one of the device without a result. -/
def Lost (b : Books) (id : String) : Prop :=
  b.crew.isComplete = true ∧ ∃ place outcome, (place, outcome) ∈ b.crew.reports ∧
    ¬ Arrived outcome ∧ run.request.deviceIds[place]? = some id

/-- All tours have ended, and the devices of those without a result are written off. -/
def Settled (b : Books) : Prop :=
  b.crew.isComplete = true ∧ ∀ place outcome id, (place, outcome) ∈ b.crew.reports →
    ¬ Arrived outcome → run.request.deviceIds[place]? = some id → b.WrittenOff run id

/-- The state of the run is reckoned from the shares of the tours. The counter of the run goes round
after 64 bits; the number that it stands for does not. -/
structure Reckoned (b : Books) : Prop where
  share : ∀ place, b.share place ≤ run.request.slotsPerDevice.toNat
  entries : ∀ id ∈ run.request.deviceIds, (b.state.device? id).isSome = true
  level : ∃ units, b.state.completedUnits = .ofNat units ∧
    units + ∑ id ∈ run.request.deviceIds.toFinset,
        (run.request.slotsPerDevice.toNat - b.state.slotsDone id) =
      ∑ id ∈ run.request.deviceIds.toFinset,
        max run.request.slotsPerDevice.toNat (counted run.request.deviceIds b.share id)
  slots : ∀ id ∈ run.request.deviceIds,
    b.state.slotsDone id = counted run.request.deviceIds b.share id ∨
      b.state.slotsDone id = run.request.slotsPerDevice.toNat ∧ b.Lost run id
  arrived : ∀ place outcome, (place, outcome) ∈ b.crew.reports → Arrived outcome →
    b.share place = run.request.slotsPerDevice.toNat
  lost : ∀ place outcome, (place, outcome) ∈ b.crew.reports → ¬ Arrived outcome →
    b.share place < run.request.slotsPerDevice.toNat
  rest : run.request.deviceIds.Nodup → ∀ place outcome id, (place, outcome) ∈ b.crew.reports →
    Arrived outcome → run.request.deviceIds[place]? = some id → b.AtRest id
  result : b.crew.result.isSome = true → b.Settled run

/-- A slot with a number is the one of this scenario in this repeat, and its device shows it if it
is requested once. -/
structure Showing (b : Books) (id scenarioId : String) (iteration : UInt32) (k : Nat) : Prop where
  lt : k < run.request.slotsPerDevice.toNat
  scenario : (scenarios[k % scenarios.length]?).map Graph.id = some scenarioId
  iteration : iteration = .ofNat (k / scenarios.length + 1)
  device : run.request.deviceIds.Nodup →
    b.state.device? id = some (slotProgress scenarios.length k)

/-- A tour works on slots in hand only, and as long as it goes on its device shows the slot in
hand. -/
structure Shown (b : Books) : Prop where
  handy : ∀ l, (b.own l).Handy
  shows : ∀ place id scenarioId iteration k,
    run.request.deviceIds[place]? = some id → place ∉ b.crew.reports.map (·.1) →
    Calls.hand (b.own (.tour n place id)) = .holds scenarioId iteration k →
    b.Showing run scenarios id scenarioId iteration k

/-- What a task may do to the reckoning. -/
def MayReckon (b : Books) : Role → RunCall → Prop
  | .lead _, .update f =>
    (∃ status, f = fun s => s.withStatus status) ∨ ∃ id, b.Lost run id ∧ f = fun s => s.writeOff id
  | .tour m place id, .update f => Calls.hand (b.own (.tour m place id)) = .free ∧
    ((∃ g : DeviceProgress → DeviceProgress, (∀ p, (g p).completedSlots = p.completedSlots) ∧
        f = fun s => s.updateDevice id g) ∨
      b.share place < run.request.slotsPerDevice.toNat ∧ f = fun s => s.completeSlot id)
  | .tour m place id, .emit (.progress report) => ∃ scenarioId iteration,
    Calls.hand (b.own (.tour m place id)) = .begun scenarioId iteration ∧
      b.Showing run scenarios id scenarioId iteration (report.scenarioProgress.current.toNat - 1)
  | .lead _, c => ¬ c.Works
  | .tour m place id, c => c.Works → (Calls.hand (b.own (.tour m place id))).isFull = true

/-- What a task has come to when it ends. -/
def EndsReckoned (b : Books) : Role → Option RoleResult → Prop
  | .lead _, ending => (RoleResult.lead? ending).isSome = true → b.Settled run
  | .tour _ place id, ending =>
    (Arrived (RoleResult.tour? ending) → b.share place = run.request.slotsPerDevice.toNat ∧
      (run.request.deviceIds.Nodup → b.AtRest id)) ∧
    (¬ Arrived (RoleResult.tour? ending) → b.share place < run.request.slotsPerDevice.toNat)

variable {run n scenarios} {b b' : Books} {l : Role} {c : RunCall}

/-- No tour has not ended when a device is lost. -/
theorem Lost.not_open {id id' : String} (h : b.Lost run id) (hs : b.Sound run) {place : Nat} :
    ¬ b.Open run (.tour n place id') := fun ho => by
  have hc := h.1
  rw [hs.not_complete ho] at hc
  cases hc

/-- No tour has not ended when all devices are settled. -/
theorem Settled.not_open (h : b.Settled run) (hs : b.Sound run) {place : Nat} {id : String} :
    ¬ b.Open run (.tour n place id) := fun ho => by
  have hc := h.1
  rw [hs.not_complete ho] at hc
  cases hc

/-- A slot shows as before when its device does. -/
theorem Showing.congr {id scenarioId : String} {iteration : UInt32} {k : Nat}
    (h : b.Showing run scenarios id scenarioId iteration k)
    (hdevice : run.request.deviceIds.Nodup → b'.state.device? id = b.state.device? id) :
    b'.Showing run scenarios id scenarioId iteration k :=
  ⟨h.lt, h.scenario, h.iteration, fun hnodup => (hdevice hnodup).trans (h.device hnodup)⟩

/-- The reckoning is about the progress of the devices, the shares and the crew. -/
theorem Reckoned.congr (h : b.Reckoned run) (hdevices : b'.state.devices = b.state.devices)
    (hunits : b'.state.completedUnits = b.state.completedUnits) (hshare : b'.share = b.share)
    (hcrew : b'.crew = b.crew) : b'.Reckoned run := by
  have hdevice : ∀ id, b'.state.device? id = b.state.device? id := fun id =>
    congrArg (TextMap.get? · id) hdevices
  have hslots : ∀ id, b'.state.slotsDone id = b.state.slotsDone id := fun id =>
    RunState.slotsDone_congr _ _ (hdevice id)
  obtain ⟨hle, hentries, hlevel, hdone, harrived, hlost, hrest, hresult⟩ := h
  constructor
  case share => simpa only [hshare] using hle
  case entries => simpa only [hdevice] using hentries
  case level => simpa only [hslots, hunits, hshare] using hlevel
  case slots => simpa only [hslots, hshare, Lost, hcrew] using hdone
  case arrived => simpa only [hshare, hcrew] using harrived
  case lost => simpa only [hshare, hcrew] using hlost
  case rest => simpa only [AtRest, hdevice, hcrew] using hrest
  case result => simpa only [Settled, WrittenOff, hdevice, hcrew] using hresult

/-- A change that counts no slot changes no share. -/
theorem share_book_of_eq {f : RunState → RunState}
    (h : (f b.state).completedUnits = b.state.completedUnits) : (b.book l f).share = b.share := by
  funext place
  simp [book, h]

/-- A slot that is counted adds one to the share of its tour. -/
theorem share_book_completeSlot {place : Nat} {id : String} :
    (b.book (.tour n place id) fun s => s.completeSlot id).share = bump b.share place := by
  have hone : b.state.completedUnits + 1 - b.state.completedUnits = 1 := by
    rw [UInt64.add_comm, UInt64.add_sub_cancel]
  funext p
  simp [book, bump, Role.place?, RunState.completeSlot, RunState.updateDevice, hone]

/-- What the lead changes is in nobody's share. -/
theorem share_book_lead {f : RunState → RunState} : (b.book (.lead n) f).share = b.share := by
  funext place
  simp [book, Role.place?]

/-- A device that is requested once is not that of a tour which is elsewhere. -/
theorem id_ne_of_place_ne {place place' : Nat} {id id' : String}
    (hnodup : run.request.deviceIds.Nodup) (hid : run.request.deviceIds[place]? = some id)
    (hid' : run.request.deviceIds[place']? = some id') (hne : place' ≠ place) : id' ≠ id := by
  rintro rfl
  have hlt := (List.getElem?_eq_some_iff.1 hid').1
  exact hne ((List.getElem?_inj hlt hnodup).1 (hid'.trans hid.symm))

/-- A tour that has not ended and one that has are about different devices if none is requested
twice. -/
theorem Open.id_ne {place place' : Nat} {id id' : String} {outcome : Option TourResult}
    (ho : b.Open run (.tour n place id)) (hnodup : run.request.deviceIds.Nodup)
    (hid' : run.request.deviceIds[place']? = some id') (hmem : (place', outcome) ∈ b.crew.reports) :
    id' ≠ id := by
  refine id_ne_of_place_ne hnodup ho.1 hid' fun heq => ho.2 ?_
  exact heq ▸ List.mem_map_of_mem (f := (·.1)) hmem

/-- As long as a tour has not ended, no device is written off. -/
theorem Reckoned.slots_of_open (h : b.Reckoned run) (hs : b.Sound run) {place : Nat} {id : String}
    (ho : b.Open run (.tour n place id)) :
    ∀ id' ∈ run.request.deviceIds,
      b.state.slotsDone id' = counted run.request.deviceIds b.share id' := fun id' hid' =>
  (h.slots id' hid').resolve_right fun hlost => hlost.2.not_open hs ho

/-- The devices of the tours that have ended stay at rest when a tour changes its own device. -/
theorem Reckoned.rest_of_others (h : b.Reckoned run) {place : Nat} {id : String}
    (ho : b.Open run (.tour n place id))
    (hother : ∀ id', id' ≠ id → b'.state.device? id' = b.state.device? id') :
    run.request.deviceIds.Nodup → ∀ place' outcome id', (place', outcome) ∈ b.crew.reports →
      Arrived outcome → run.request.deviceIds[place']? = some id' → b'.AtRest id' := by
  intro hnodup place' outcome id' hmem harrived hid'
  obtain ⟨p, hp, hrest⟩ := h.rest hnodup place' outcome id' hmem harrived hid'
  exact ⟨p, (hother id' (ho.id_ne hnodup hid' hmem)).trans hp, hrest⟩

/-- A run has no result as long as a tour has not ended. -/
theorem Reckoned.no_result (h : b.Reckoned run) (hs : b.Sound run) {place : Nat} {id : String}
    (ho : b.Open run (.tour n place id)) : ¬ b.crew.result.isSome = true := fun hresult =>
  (h.result hresult).not_open hs ho

/-- A tour changes what its device shows, but not how many slots it has done. -/
theorem Reckoned.updateDevice (h : b.Reckoned run) (hs : b.Sound run) {place : Nat} {id : String}
    (ho : b.Open run (.tour n place id)) {g : DeviceProgress → DeviceProgress}
    (hg : ∀ p, (g p).completedSlots = p.completedSlots) :
    (b.book (.tour n place id) fun s => s.updateDevice id g).Reckoned run := by
  have hshare : (b.book (.tour n place id) fun s => s.updateDevice id g).share = b.share :=
    share_book_of_eq rfl
  have hslots : ∀ id', (b.state.updateDevice id g).slotsDone id' = b.state.slotsDone id' :=
    fun id' => b.state.slotsDone_updateDevice id id' hg
  constructor
  case share =>
    rw [hshare]
    exact h.share
  case entries =>
    intro id' hid'
    exact b.state.isSome_device?_updateDevice id id' g (h.entries id' hid')
  case level =>
    rw [hshare]
    simp only [book, hslots]
    exact h.level
  case slots =>
    rw [hshare]
    simp only [book, hslots]
    exact h.slots
  case arrived =>
    rw [hshare]
    exact h.arrived
  case lost =>
    rw [hshare]
    exact h.lost
  case rest =>
    apply h.rest_of_others ho
    intro id' hne
    exact (b.state.device?_updateDevice id id' g).trans (if_neg hne)
  case result =>
    intro hresult
    exact absurd hresult (h.no_result hs ho)

/-- There is room for one more slot of a tour that has not counted all of its own. -/
theorem Reckoned.room (h : b.Reckoned run) (hs : b.Sound run) {place : Nat} {id : String}
    (ho : b.Open run (.tour n place id))
    (hcap : ∀ id, run.request.deviceIds.count id * run.request.slotsPerDevice.toNat < UInt32.size)
    (hlt : b.share place < run.request.slotsPerDevice.toNat) :
    b.state.slotsDone id + 1 < UInt32.size := by
  have hfull := counted_lt h.share ho.1 hlt
  have hfits := hcap id
  rw [h.slots_of_open hs ho id (List.mem_of_getElem? ho.1)]
  omega

/-- The slots done after one more slot of a tour. -/
theorem Reckoned.slotsDone_completeSlot (h : b.Reckoned run) (hs : b.Sound run) {place : Nat}
    {id : String} (ho : b.Open run (.tour n place id))
    (hcap : ∀ id, run.request.deviceIds.count id * run.request.slotsPerDevice.toNat < UInt32.size)
    (hlt : b.share place < run.request.slotsPerDevice.toNat) (id' : String) :
    (b.state.completeSlot id).slotsDone id' =
      b.state.slotsDone id' + if id' = id then 1 else 0 := by
  split
  · next heq =>
    rw [heq]
    exact b.state.slotsDone_completeSlot id (h.room hs ho hcap hlt)
  · next hne =>
    exact RunState.slotsDone_congr _ _ (b.state.device?_completeSlot_of_ne id id' hne)

/-- With one more slot of a tour, what the run has counted and what its devices still lack add up
to what is due of them. -/
theorem Reckoned.level_completeSlot (h : b.Reckoned run) (hs : b.Sound run) {place : Nat}
    {id : String} (ho : b.Open run (.tour n place id))
    (hcap : ∀ id, run.request.deviceIds.count id * run.request.slotsPerDevice.toNat < UInt32.size)
    (hlt : b.share place < run.request.slotsPerDevice.toNat) :
    ∃ units, (b.state.completeSlot id).completedUnits = .ofNat units ∧
      units + ∑ x ∈ run.request.deviceIds.toFinset,
          (run.request.slotsPerDevice.toNat - (b.state.completeSlot id).slotsDone x) =
        ∑ x ∈ run.request.deviceIds.toFinset, max run.request.slotsPerDevice.toNat
          (counted run.request.deviceIds (bump b.share place) x) := by
  have hmem : id ∈ run.request.deviceIds := List.mem_of_getElem? ho.1
  have hdone := h.slotsDone_completeSlot hs ho hcap hlt
  have hself : (b.state.completeSlot id).slotsDone id = b.state.slotsDone id + 1 := by
    rw [hdone, if_pos rfl]
  have hlacks := sum_change hmem
    (f := fun x => run.request.slotsPerDevice.toNat - (b.state.completeSlot id).slotsDone x)
    (g := fun x => run.request.slotsPerDevice.toNat - b.state.slotsDone x)
    fun x hne => by rw [hdone, if_neg hne, Nat.add_zero]
  have hdue := sum_due_bump run.request.slotsPerDevice.toNat b.share ho.1
  obtain ⟨units, hunits, hlevel⟩ := h.level
  simp only [hself] at hlacks
  rw [← h.slots_of_open hs ho id hmem] at hdue
  refine ⟨units + 1, ?_, by omega⟩
  rw [UInt64.ofNat_add, ← hunits]
  rfl

/-- A tour counts one more slot, in the state of the run and as its share. -/
theorem Reckoned.completeSlot (h : b.Reckoned run) (hs : b.Sound run) {place : Nat} {id : String}
    (ho : b.Open run (.tour n place id))
    (hcap : ∀ id, run.request.deviceIds.count id * run.request.slotsPerDevice.toNat < UInt32.size)
    (hlt : b.share place < run.request.slotsPerDevice.toNat) :
    (b.book (.tour n place id) fun s => s.completeSlot id).Reckoned run := by
  have hkeep : ∀ place' outcome, (place', outcome) ∈ b.crew.reports →
      bump b.share place place' = b.share place' := fun place' outcome hmem' => by
    apply if_neg
    intro heq
    exact ho.2 (heq ▸ List.mem_map_of_mem (f := (·.1)) hmem')
  constructor
  case share =>
    intro p
    rw [share_book_completeSlot, bump]
    have hle := h.share p
    split
    · next heq =>
      subst heq
      omega
    · exact hle
  case entries =>
    intro id' hid'
    exact b.state.isSome_device?_completeSlot id id' (h.entries id' hid')
  case level =>
    rw [share_book_completeSlot]
    exact h.level_completeSlot hs ho hcap hlt
  case slots =>
    intro id' hid'
    left
    rw [share_book_completeSlot, counted_bump ho.1, ← h.slots_of_open hs ho id' hid']
    exact h.slotsDone_completeSlot hs ho hcap hlt id'
  case arrived =>
    intro place' outcome hmem' harrived
    rw [share_book_completeSlot, hkeep place' outcome hmem']
    exact h.arrived place' outcome hmem' harrived
  case lost =>
    intro place' outcome hmem' hlost
    rw [share_book_completeSlot, hkeep place' outcome hmem']
    exact h.lost place' outcome hmem' hlost
  case rest => exact h.rest_of_others ho fun id' => b.state.device?_completeSlot_of_ne id id'
  case result =>
    intro hresult
    exact absurd hresult (h.no_result hs ho)

/-- A device whose tour came to nothing is written off. -/
theorem Reckoned.writeOff (h : b.Reckoned run) (hs : b.Sound run) {id : String}
    (hlost : b.Lost run id) :
    (b.book (.lead n) fun s => s.writeOff id).Reckoned run := by
  have hcomplete := hlost.1
  obtain ⟨place, outcome, -, -, hid⟩ := hlost.2
  have hmem : id ∈ run.request.deviceIds := List.mem_of_getElem? hid
  have hself : (b.state.writeOff id).slotsDone id = run.request.slotsPerDevice.toNat := by
    rw [RunState.slotsDone_writeOff, hs.request]
  have hother : ∀ id', id' ≠ id → (b.state.writeOff id).device? id' = b.state.device? id' :=
    fun id' => b.state.device?_writeOff_of_ne id id'
  have hslots : ∀ id', id' ≠ id → (b.state.writeOff id).slotsDone id' = b.state.slotsDone id' :=
    fun id' hne => RunState.slotsDone_congr _ _ (hother id' hne)
  obtain ⟨p, hp, hdone, hstatus⟩ := b.state.device?_writeOff id
  rw [hs.request] at hdone
  constructor
  case share =>
    rw [share_book_lead]
    exact h.share
  case entries =>
    intro id' hid'
    exact b.state.isSome_device?_writeOff id id' (h.entries id' hid')
  case level =>
    have hleft := sum_change hmem
      (f := fun x => run.request.slotsPerDevice.toNat - (b.state.writeOff id).slotsDone x)
      (g := fun x => run.request.slotsPerDevice.toNat - b.state.slotsDone x)
      fun x hne => by rw [hslots x hne]
    obtain ⟨units, hunits, hlevel⟩ := h.level
    have hwritten := b.state.completedUnits_writeOff id
    rw [hs.request, hunits, ← UInt64.ofNat_add] at hwritten
    simp only [hself] at hleft
    rw [share_book_lead]
    refine ⟨_, hwritten, ?_⟩
    simp only [book]
    omega
  case slots =>
    intro id' hid'
    rw [share_book_lead]
    by_cases heq : id' = id
    · subst heq
      exact .inr ⟨hself, hlost⟩
    · have hsame : (b.state.writeOff id).slotsDone id' = b.state.slotsDone id' := hslots id' heq
      exact (h.slots id' hid').imp hsame.trans fun h' => ⟨hsame.trans h'.1, h'.2⟩
  case arrived =>
    rw [share_book_lead]
    exact h.arrived
  case lost =>
    rw [share_book_lead]
    exact h.lost
  case rest =>
    intro hnodup place' outcome id' hmem' harrived hid'
    by_cases heq : id' = id
    · subst heq
      exact ⟨p, hp, .inr hstatus⟩
    · obtain ⟨p', hp', hrest⟩ := h.rest hnodup place' outcome id' hmem' harrived hid'
      exact ⟨p', (hother id' heq).trans hp', hrest⟩
  case result =>
    intro hresult
    refine ⟨hcomplete, ?_⟩
    intro place' outcome id' hmem' hnot hid'
    by_cases heq : id' = id
    · subst heq
      exact ⟨p, hp, hdone, hstatus⟩
    · obtain ⟨p', hp', hwritten⟩ := (h.result hresult).2 place' outcome id' hmem' hnot hid'
      exact ⟨p', (hother id' heq).trans hp', hwritten⟩

/-- The beginning of the tours does not change the reckoning. -/
theorem Reckoned.start (h : b.Reckoned run) : b.start.Reckoned run :=
  ⟨h.share, h.entries, h.level, h.slots, h.arrived, h.lost, h.rest, h.result⟩

/-- The end of a task does not change the reckoning. -/
theorem Reckoned.finish (h : b.Reckoned run) (hs : b.Sound run) (ho : b.Open run l)
    {ending : Option RoleResult} (hends : b.EndsReckoned run l ending) :
    (b.finish l ending).Reckoned run := by
  cases l with
  | lead m =>
    exact ⟨h.share, h.entries, h.level, h.slots, h.arrived, h.lost, h.rest, hends⟩
  | tour m place id =>
    constructor
    case share => exact h.share
    case entries => exact h.entries
    case level => exact h.level
    case slots =>
      intro id' hid'
      left
      exact h.slots_of_open hs ho id' hid'
    case arrived =>
      intro p outcome hmem harrived
      rcases mem_reports_finish.1 hmem with hmem | ⟨rfl, rfl⟩
      · exact h.arrived p outcome hmem harrived
      · exact (hends.1 harrived).1
    case lost =>
      intro p outcome hmem hnot
      rcases mem_reports_finish.1 hmem with hmem | ⟨rfl, rfl⟩
      · exact h.lost p outcome hmem hnot
      · exact hends.2 hnot
    case rest =>
      intro hnodup p outcome id' hmem harrived hid'
      rcases mem_reports_finish.1 hmem with hmem | ⟨rfl, rfl⟩
      · exact h.rest hnodup p outcome id' hmem harrived hid'
      · obtain rfl : id = id' := Option.some.inj (ho.1.symm.trans hid')
        exact (hends.1 harrived).2 hnodup
    case result =>
      intro hresult
      exact absurd hresult (h.no_result hs ho)

/-- A task that does to the reckoning what it may leaves the state reckoned. -/
theorem Reckoned.call (h : b.Reckoned run) (hs : b.Sound run) (ho : b.Open run l)
    (hcap : ∀ id, run.request.deviceIds.count id * run.request.slotsPerDevice.toNat < UInt32.size)
    (hmay : b.MayReckon run scenarios l c) : ((b.note l c).answered l c).Reckoned run := by
  cases c with
  | update f =>
    suffices hbook : (b.book l f).Reckoned run from hbook.congr rfl rfl rfl rfl
    cases l with
    | lead m =>
      rcases hmay with ⟨status, rfl⟩ | ⟨id, hlost, rfl⟩
      · exact h.congr rfl rfl share_book_lead rfl
      · exact h.writeOff hs hlost
    | tour m place id =>
      obtain ⟨-, ⟨g, hg, rfl⟩ | ⟨hlt, rfl⟩⟩ := hmay
      · exact h.updateDevice hs ho hg
      · exact h.completeSlot hs ho hcap hlt
  | _ => exact h.congr rfl rfl rfl rfl

/-- What a task does leaves alone what the devices of other tours show, if each is requested
once. -/
theorem device?_call_of_ne (hs : b.Sound run) (ho : b.Open run l) (hrun : l.run = n) {place : Nat}
    {id : String} (ho' : b.Open run (.tour n place id)) (hne : .tour n place id ≠ l)
    (hnodup : run.request.deviceIds.Nodup) (hmay : b.MayReckon run scenarios l c) :
    ((b.note l c).answered l c).state.device? id = b.state.device? id := by
  cases c with
  | update f =>
    cases l with
    | lead m =>
      rcases hmay with ⟨status, rfl⟩ | ⟨id', hlost, rfl⟩
      · rfl
      · exact absurd ho' (hlost.not_open hs)
    | tour m place' id' =>
      obtain rfl : m = n := hrun
      have hplace : place ≠ place' := by
        rintro rfl
        exact hne (by rw [ho'.eq_of_place ho])
      have hid : id ≠ id' := id_ne_of_place_ne hnodup ho.1 ho'.1 hplace
      obtain ⟨-, ⟨g, hg, rfl⟩ | ⟨hlt, rfl⟩⟩ := hmay
      · exact (b.state.device?_updateDevice id' id g).trans (if_neg hid)
      · exact b.state.device?_completeSlot_of_ne id' id hid
  | _ => rfl

/-- Who may work on a slot has one in hand. -/
theorem MayReckon.hand (hmay : b.MayReckon run scenarios l c) (hc : c.Works) :
    (Calls.hand (b.own l)).isFull = true := by
  cases l with
  | lead m => cases c <;> first | exact absurd hc hmay | cases hc.2
  | tour m place id => cases c <;> first | exact hmay hc | cases hc.2

/-- A slot in hand was in hand before, unless its number has just been told. -/
theorem MayReckon.holds {m place k : Nat} {id scenarioId : String} {iteration : UInt32}
    (hmay : b.MayReckon run scenarios (.tour m place id) c)
    (hhand : (Calls.hand (b.own (.tour m place id))).after c = .holds scenarioId iteration k) :
    Calls.hand (b.own (.tour m place id)) = .holds scenarioId iteration k ∧ c.changes = false ∨
      b.Showing run scenarios id scenarioId iteration k ∧ ∃ e, c = .emit e := by
  cases c with
  | update f =>
    have hfree : (Calls.hand (b.own (.tour m place id))).after (.update f) = .free := hmay.1 ▸ rfl
    rw [hfree] at hhand
    cases hhand
  | emit e =>
    cases e with
    | progress report =>
      obtain ⟨scenarioId', iteration', hbegun, hshowing⟩ := hmay
      rw [hbegun] at hhand
      obtain ⟨rfl, rfl, rfl⟩ := Hand.holds.inj hhand
      exact .inr ⟨hshowing, _, rfl⟩
    | scenarioStart => cases hhand
    | scenarioComplete => cases hhand
    | _ => exact .inl ⟨hhand, rfl⟩
  | _ => exact .inl ⟨hhand, rfl⟩

/-- What the devices show stays in step with the calls when one is made. -/
theorem Shown.call (h : b.Shown run n scenarios) (hs : b.Sound run) (ho : b.Open run l)
    (hrun : l.run = n) (hmay : b.MayReckon run scenarios l c) :
    ((b.note l c).answered l c).Shown run n scenarios := by
  constructor
  · intro other
    by_cases hl : other = l
    · subst hl
      rw [own_call]
      exact (h.handy other).append hmay.hand
    · rw [own_call_of_ne hl]
      exact h.handy other
  · intro place id scenarioId iteration k hid hplace hhand
    rw [crew_call] at hplace
    have ho' : b.Open run (.tour n place id) := ⟨hid, hplace⟩
    by_cases hl : .tour n place id = l
    · subst hl
      rw [own_call, Calls.hand_append] at hhand
      obtain ⟨hold, hchanges⟩ | ⟨hshowing, e, rfl⟩ := hmay.holds hhand
      · apply (h.shows place id scenarioId iteration k hid hplace hold).congr
        intro _
        cases c <;> first | rfl | cases hchanges
      · exact hshowing.congr fun _ => rfl
    · rw [own_call_of_ne hl] at hhand
      exact (h.shows place id scenarioId iteration k hid hplace hhand).congr
        (device?_call_of_ne hs ho hrun ho' hl · hmay)

/-- What the devices show stays in step with the calls when a task ends. -/
theorem Shown.finish (h : b.Shown run n scenarios) (ending : Option RoleResult) :
    (b.finish l ending).Shown run n scenarios := by
  refine ⟨h.handy, ?_⟩
  intro place id scenarioId iteration k hid hplace hhand
  have hopen : place ∉ b.crew.reports.map (·.1) := by
    intro hmem
    apply hplace
    cases l with
    | lead m => exact hmem
    | tour m place' id' => exact mem_places_finish.2 (.inl hmem)
  exact (h.shows place id scenarioId iteration k hid hopen hhand).congr fun _ => rfl

/-- What the devices show has to do with the calls, the reports and the progress alone. -/
theorem Shown.congr (h : b.Shown run n scenarios) (hcalls : b'.calls = b.calls)
    (hcrew : b'.crew.reports = b.crew.reports)
    (hdevices : b'.state.devices = b.state.devices) : b'.Shown run n scenarios := by
  have hown : ∀ l, b'.own l = b.own l := fun l => congrArg (List.filter _) hcalls
  refine ⟨fun l => hown l ▸ h.handy l, ?_⟩
  intro place id scenarioId iteration k hid hplace hhand
  rw [hcrew] at hplace
  rw [hown] at hhand
  exact (h.shows place id scenarioId iteration k hid hplace hhand).congr
    fun _ => congrArg (TextMap.get? · id) hdevices

/-- With every device requested once, neither the run nor a device loses slots. -/
structure Advances (run : RunState) (b b' : Books) : Prop where
  slots : ∀ id ∈ run.request.deviceIds, b.state.slotsDone id ≤ b'.state.slotsDone id

/-- Devices whose progress is left alone do not fall back. -/
theorem Advances.of_eq (hdevices : b'.state.devices = b.state.devices) : b.Advances run b' :=
  ⟨fun id _ => (RunState.slotsDone_congr _ id (congrArg (TextMap.get? · id) hdevices)).ge⟩

/-- Devices that do not fall back twice do not fall back. -/
theorem Advances.trans {b'' : Books} (h : b.Advances run b') (h' : b'.Advances run b'') :
    b.Advances run b'' :=
  ⟨fun id hid => (h.slots id hid).trans (h'.slots id hid)⟩

/-- No device that is requested once has done more slots than it has. -/
theorem Reckoned.slots_le (h : b.Reckoned run) (hnodup : run.request.deviceIds.Nodup) :
    ∀ id ∈ run.request.deviceIds, b.state.slotsDone id ≤ run.request.slotsPerDevice.toNat := by
  intro id hid
  obtain ⟨place, hplace⟩ := List.getElem?_of_mem hid
  rcases h.slots id hid with hslots | ⟨hslots, -⟩
  · rw [hslots, counted_of_nodup hnodup hplace]
    exact h.share place
  · exact hslots.le

/-- No device falls back when a call is made. -/
theorem Reckoned.advances_call (h : b.Reckoned run) (hs : b.Sound run) (ho : b.Open run l)
    (hcap : ∀ id, run.request.deviceIds.count id * run.request.slotsPerDevice.toNat < UInt32.size)
    (hnodup : run.request.deviceIds.Nodup) (hmay : b.MayReckon run scenarios l c) :
    b.Advances run ((b.note l c).answered l c) := by
  cases c with
  | update f =>
    cases l with
    | lead m =>
      rcases hmay with ⟨status, rfl⟩ | ⟨id, hlost, rfl⟩
      · exact .of_eq rfl
      · refine ⟨?_⟩
        intro id' hid'
        have hle := h.slots_le hnodup id' hid'
        by_cases heq : id' = id
        · subst heq
          have hself := b.state.slotsDone_writeOff id'
          rw [hs.request] at hself
          exact hself.symm ▸ hle
        · have hother := b.state.device?_writeOff_of_ne id id' heq
          exact (RunState.slotsDone_congr _ _ hother).ge
    | tour m place id =>
      obtain ⟨-, ⟨g, hg, rfl⟩ | ⟨hlt, rfl⟩⟩ := hmay
      · exact ⟨fun id' _ => (b.state.slotsDone_updateDevice id id' hg).ge⟩
      · refine ⟨?_⟩
        intro id' _
        by_cases heq : id' = id
        · subst heq
          have hself := b.state.slotsDone_completeSlot id' (h.room hs ho hcap hlt)
          exact hself.symm ▸ Nat.le_succ _
        · have hother := b.state.device?_completeSlot_of_ne id id' heq
          exact (RunState.slotsDone_congr _ _ hother).ge
  | _ => exact .of_eq rfl

end Books

/-- The tasks of a run reckon its slots, as long as no count of a device can overflow. -/
def reckoning (run : RunState) (n : Nat) (scenarios : List Graph)
    (hcap : ∀ id, run.request.deviceIds.count id * run.request.slotsPerDevice.toNat < UInt32.size) :
    Accord run n where
  keeps b := b.Reckoned run ∧ b.Shown run n scenarios
  minds l b b' := match l with
    | .lead _ => True
    | .tour _ _ id => run.request.deviceIds.Nodup → b'.state.device? id = b.state.device? id
  may l b c := b.MayReckon run scenarios l c
  ends l b ending := b.EndsReckoned run l ending
  grows b b' := run.request.deviceIds.Nodup → b.Advances run b'
  minds_refl l b := by cases l <;> first | trivial | exact fun _ => rfl
  minds_trans {l b b' b''} h h' := by
    cases l with
    | lead m => trivial
    | tour m place id => exact fun hnodup => (h' hnodup).trans (h hnodup)
  grows_refl b _ := .of_eq rfl
  grows_trans h h' hnodup := (h hnodup).trans (h' hnodup)
  raise b := ⟨fun h => ⟨h.1.congr rfl rfl rfl rfl, h.2.congr rfl rfl rfl⟩, fun _ => .of_eq rfl,
    fun l => by cases l <;> first | trivial | exact fun _ => rfl⟩
  start b := ⟨fun h => ⟨h.1.start, h.2.congr rfl rfl rfl⟩, fun _ => .of_eq rfl,
    fun l => by cases l <;> first | trivial | exact fun _ => rfl⟩
  call {l b c} hl hs hk ho _ hmay _ := by
    refine ⟨⟨hk.1.call hs ho hcap hmay, hk.2.call hs ho hl hmay⟩,
      fun hnodup => hk.1.advances_call hs ho hcap hnodup hmay, ?_⟩
    intro other hne hother ho'
    cases other with
    | lead m => trivial
    | tour m place id =>
      obtain rfl : m = n := hother
      exact fun hnodup => Books.device?_call_of_ne hs ho hl ho' hne hnodup hmay
  finish {l b r} _ hs hk ho hends := by
    refine ⟨⟨hk.1.finish hs ho hends, hk.2.finish r⟩, fun _ => .of_eq rfl, ?_⟩
    intro other _ _ _
    cases other with
    | lead m => trivial
    | tour m place id => exact fun _ => rfl

end DeviceSuite
