import DeviceSuite.Proofs.Run.Touring
import DeviceSuite.Proofs.Task.Beats
import Mathlib.Data.List.Chain

/-!
# The pace of a tour

A tour does its slots in rounds: it tells that a slot begins, has it walked and recorded, tells that
it has ended, and rests before the next one. The rest after a slot is as long as the interval
between slots, unless the run is stopped meanwhile; there is none after the last slot, and none
before a slot that is skipped, so the tour is over as soon as no slot is left to be run.
-/

namespace DeviceSuite

/-- What is seen of the pace of a tour: a slot begins, the tour works at it, the slot ends, and at
last the tour is over. -/
inductive Mark where
  | begins (scenarioId : String) (iteration : UInt32)
  | works (c : RunCall)
  | ends (scenarioId : String) (iteration : UInt32)
  | closes

namespace RunCall

/-- A call for the sake of a slot: to the device, to the queue of the pictures, or to the
recorder. -/
def isWork : RunCall → Bool
  | device .environment | device .appInfo => false
  | device _ | save _ _ | startVideo _ | stopVideo _ => true
  | _ => false

/-- What is seen of a call. -/
def mark? : RunCall → Option Mark
  | emit (.scenarioStart _ _ scenarioId _ iteration _) => some (.begins scenarioId iteration)
  | emit (.scenarioComplete _ _ result) => some (.ends result.scenarioId result.iteration)
  | emit (.deviceComplete _ _) => some .closes
  | c => if c.isWork then some (.works c) else none

end RunCall

/-- What is seen of calls, each with its instant. -/
def marksOf (calls : List (Nat × RunCall)) : List (Nat × Mark) :=
  calls.filterMap fun e => e.2.mark?.map (Prod.mk e.1)

/-- What is seen of calls after others is seen after what is seen of those. -/
@[simp] theorem marksOf_append (calls more : List (Nat × RunCall)) :
    marksOf (calls ++ more) = marksOf calls ++ marksOf more :=
  List.filterMap_append

/-- Of calls without a mark nothing is seen. -/
theorem marksOf_eq_nil {calls : List (Nat × RunCall)} (h : ∀ e ∈ calls, e.2.mark? = none) :
    marksOf calls = [] :=
  List.filterMap_eq_nil_iff.2 fun e he => by simp [h e he]

/-- The calls of a slot are seen when the tour works at it. -/
theorem RunCall.OfSlot.mark? {c : RunCall} (h : c.OfSlot) :
    c.mark? = if c.isWork then some (.works c) else none := by
  cases c with
  | emit e => cases e <;> first | rfl | cases h
  | _ => rfl

/-- Of the calls of a slot the work is seen. -/
theorem marksOf_eq_works {calls : List (Nat × RunCall)} (h : ∀ e ∈ calls, e.2.OfSlot) :
    marksOf calls = (calls.filter fun e => e.2.isWork).map fun e => (e.1, .works e.2) := by
  induction calls with
  | nil => rfl
  | cons e rest ih =>
    obtain ⟨he, hrest⟩ := List.forall_mem_cons.1 h
    have hmark := he.mark?
    cases hwork : e.2.isWork with
    | true => simpa [marksOf, hmark, hwork] using ih hrest
    | false => simpa [marksOf, hmark, hwork] using ih hrest

/-- A slot that is run: when it begins, what is done for it, and when it has ended. -/
structure Round where
  began : Nat
  works : List (Nat × RunCall)
  ended : Nat

/-- All that is done for a slot is done between its beginning and its end. -/
def Round.Sound (x : Round) : Prop :=
  x.began ≤ x.ended ∧ ∀ e ∈ x.works, x.began ≤ e.1 ∧ e.1 ≤ x.ended

namespace RunTask

variable {α β : Type} {t : RunTask α} {b : Beat} {H : RunCall → Prop} {P : α → Prop}
  {Q Q' : List (Nat × Mark) → Option α → Beat → Prop}

/-- However a task unfolds in time, what is seen of its calls, its result, and the beat at which it
ends are as `Q` says. -/
def Seen (t : RunTask α) (b : Beat) (Q : List (Nat × Mark) → Option α → Beat → Prop) : Prop :=
  t.Unfolds RunCall.pace b fun calls => Q (marksOf calls)

/-- What is seen of a task may be told with less. -/
theorem Seen.mono (h : t.Seen b Q) (hQ : ∀ marks r b', Q marks r b' → Q' marks r b') :
    t.Seen b Q' :=
  Task.Unfolds.mono h fun _ => hQ _

/-- What is seen of tasks one after the other is what is seen of each. -/
theorem Seen.bind {f : α → RunTask β} {Q' : List (Nat × Mark) → Option β → Beat → Prop}
    (h : t.Seen b Q) (hcrash : ∀ marks b', Q marks none b' → Q' marks none b')
    (hf : ∀ marks a b', Q marks (some a) b' → (f a).Seen b' fun more => Q' (marks ++ more)) :
    (t >>= f).Seen b Q' := by
  refine Task.Unfolds.bind h (fun calls => hcrash (marksOf calls)) fun calls a b' hQ => ?_
  refine Task.Unfolds.mono (hf (marksOf calls) a b' hQ) fun more r b'' hmore => ?_
  rw [marksOf_append]
  exact hmore

/-- A task that takes no time and of which nothing is seen. -/
theorem seen_of_brisk (hbrisk : t.Brisk) (h : t.Only H P)
    (hH : ∀ c, H c → c.pace = .instant ∧ c.mark? = none) :
    t.Seen b fun marks r b' => marks = [] ∧ b.Still b' ∧ ∀ a ∈ r, P a :=
  (hbrisk.unfolds h (fun c hc => (hH c hc).1) b).mono fun _ _ _ hr =>
    ⟨marksOf_eq_nil fun e he => (hH _ (hr.1 e he)).2, hr.2⟩

/-- To read the instant is to read the beat. -/
theorem seen_instant_bind {f : Instant → RunTask α} :
    (instant >>= f).Seen b Q ↔ (f (.ofMillis b.now)).Seen b Q := Iff.rfl

/-- A call that takes no time and of which nothing is seen. -/
theorem seen_ask {c : RunCall} (hpace : c.pace = .instant) (hmark : c.mark? = none) :
    Seen (Task.ask c) b fun marks _ b' => marks = [] ∧ b.Still b' :=
  Task.unfolds_ask hpace fun _ _ hb => ⟨marksOf_eq_nil (List.forall_mem_singleton.2 hmark), hb⟩

/-- A change of the state of the run is not seen, and takes no time. -/
theorem seen_update (f : RunState → RunState) :
    (update f).Seen b fun marks _ b' => marks = [] ∧ b.Still b' :=
  seen_ask rfl rfl

/-- What is done at the end is seen last, whether the task ends well or crashes. -/
theorem Seen.ensuring {last : RunTask Unit} (h : t.Seen b Q')
    (hlast : ∀ marks r b', Q' marks r b' →
      last.Seen b' fun more ended => Q (marks ++ more) (ended.bind fun _ => r)) :
    Seen (t.ensuring last) b Q := by
  refine Task.unfolds_ensuring.2 (Task.Unfolds.mono h fun calls r b' hr => ?_)
  refine Task.Unfolds.mono (hlast _ r b' hr) fun more ended b'' hmore => ?_
  rw [marksOf_append]
  exact hmore

/-- An event is told at once. -/
theorem seen_emit (e : Event) : (emit e).Seen b fun marks _ b' =>
    marks = marksOf [(b.now, .emit e)] ∧ b.Still b' :=
  Task.unfolds_ask rfl fun _ _ hb => ⟨rfl, hb⟩

end RunTask

namespace Tour

open RunTask

variable {t : Tour} {g : Graph} {k left : Nat} {d : DeviceResult} {b b' : Beat} {x : Round}
  {rounds : List Round}

/-- The time between two slots. -/
def gap (t : Tour) : Nat := t.run.request.scenarioInterval.toNat

/-- The scenario of a slot. -/
def scenarioId (t : Tour) (k : Nat) : String :=
  ((t.scenarios[t.scenarioIndex k]?).map Graph.id).getD ""

/-- The beginning of a slot. -/
def startOf (t : Tour) (k : Nat) : Mark := .begins (t.scenarioId k) (t.iteration k)

/-- The end of a slot. -/
def endOf (t : Tour) (k : Nat) : Mark := .ends (t.scenarioId k) (t.iteration k)

/-- What is seen of a slot that is run. -/
def marks (t : Tour) (k : Nat) (x : Round) : List (Nat × Mark) :=
  (x.began, t.startOf k) :: x.works.map (fun e => (e.1, .works e.2)) ++ [(x.ended, t.endOf k)]

/-- What is seen of slots that are run, from a given one on. -/
def row (t : Tour) (k : Nat) : List Round → List (Nat × Mark)
  | [] => []
  | x :: rest => t.marks k x ++ t.row (k + 1) rest

/-- The scenario of a slot is the one at its position. -/
theorem scenarioId_eq (hg : t.scenarios[t.scenarioIndex k]? = some g) : t.scenarioId k = g.id := by
  rw [scenarioId, hg]
  rfl

/-! ## Slots -/

/-- A slot that is skipped is not seen, and takes no time. -/
theorem seen_skip : (t.skip g k d).Seen b fun marks _ b' => marks = [] ∧ b.Still b' := by
  have hbrisk : (t.skip g k d).Brisk := fun _ => (Task.brisk_ask _).bind fun _ => Task.brisk_pure _
  have honly : (t.skip g k d).Only (fun c => c.changes = true) fun _ => True := by
    simp only [skip, settle, Task.only_bind, RunTask.only_instant, RunTask.only_update,
      Task.only_pure]
    exact fun _ => ⟨rfl, fun _ => trivial⟩
  refine (seen_of_brisk hbrisk honly fun c hc => ?_).mono fun _ _ _ h => ⟨h.1, h.2.1⟩
  cases c with
  | update f => exact ⟨rfl, rfl⟩
  | _ => cases hc

/-- Once the run is stopped, no slot is run and no time passes. -/
theorem seen_slots_of_raised {time : Nat} (hb : b.raised = some time) :
    (t.slots left k d).Seen b fun marks _ b' => marks = [] ∧ b' = b := by
  induction left generalizing k d with
  | zero => exact ⟨rfl, rfl⟩
  | succ left ih =>
    rw [slots]
    split
    · exact ⟨rfl, rfl⟩
    · next g _ =>
      have hskip : (do t.slots left (k + 1) (← t.skip g k d)).Seen b fun marks _ b' =>
          marks = [] ∧ b' = b := by
        refine seen_skip.bind (fun _ _ h => ⟨h.1, h.2.eq_of_raised hb⟩) ?_
        rintro _ d' b₁ ⟨rfl, hb₁⟩
        rw [hb₁.eq_of_raised hb]
        exact ih
      apply Task.unfolds_isStopped_bind.2
      rw [hb]
      exact hskip

/-- A slot begins at once. -/
theorem seen_announce (hg : t.scenarios[t.scenarioIndex k]? = some g) :
    (t.announce g k).Seen b fun marks _ b' =>
      marks = [(b.now, t.startOf k)] ∧ b.Still b' := by
  rw [announce, startOf, scenarioId_eq hg]
  apply seen_instant_bind.2
  refine (seen_emit _).bind (fun _ _ h => h) ?_
  rintro _ _ b₁ ⟨rfl, hb₁⟩
  have hquiet : ∀ task : RunTask Unit, task.Brisk →
      task.Only (fun c => c = .progress ∨ ∃ r, c = .emit (.progress r)) (fun _ => True) →
      task.Seen b₁ fun marks _ b' => marks = [] ∧ b₁.Still b' := by
    refine fun task hbrisk honly =>
      (seen_of_brisk hbrisk honly ?_).mono fun _ _ _ h => ⟨h.1, h.2.1⟩
    rintro _ (rfl | ⟨r, rfl⟩) <;> exact ⟨rfl, rfl⟩
  refine (hquiet _ ?_ ?_).mono fun more _ b₂ h => ?_
  · exact (Task.brisk_ask _).bind fun _ => Task.brisk_ask _
  · exact Task.only_bind.2 (Task.only_ask.2
      ⟨.inl rfl, fun _ => only_emit.2 ⟨.inr ⟨_, rfl⟩, fun _ => trivial⟩⟩)
  · exact ⟨by rw [h.1]; rfl, hb₁.trans h.2⟩

/-- What is done for a slot is done from now on. -/
theorem seen_film : (t.film g k).Seen b fun marks r b' =>
    (∃ works : List (Nat × RunCall), marks = works.map (fun e => (e.1, .works e.2)) ∧
      ∀ e ∈ works, b.now ≤ e.1 ∧ e.1 ≤ b'.now) ∧
      b.Later b' ∧ ∀ done ∈ r, done.scenarioId = g.id ∧ done.iteration = t.iteration k := by
  refine ((only_film k).unfolds b).mono fun calls r b' ⟨hcalls, hlater, hr⟩ => ?_
  refine ⟨⟨_, marksOf_eq_works fun e he => (hcalls e he).1.1, fun e he => ?_⟩, hlater,
    fun done hdone => ?_⟩
  · exact (hcalls e (List.mem_filter.1 he).1).2
  · obtain ⟨hid, -, hiteration, -⟩ := hr done hdone
    exact ⟨hid, hiteration⟩

/-- A slot has ended, and the tour has rested after it if it is not the last. -/
structure Rested (t : Tour) (k ended : Nat) (b : Beat) : Prop where
  last : k + 1 = t.size → b.now = ended
  full : k + 1 < t.size → b.raised = none → b.now = ended + t.gap
  cut : k + 1 < t.size → ∀ time ∈ b.raised, time ≤ ended + t.gap ∧ b.now = max ended time

/-- As long as the slots of a device can be told, the number of a slot tells whether it is the
last. -/
theorem number_lt_iff (hcount : t.size = t.run.request.slotsPerDevice.toNat) (hk : k < t.size) :
    number k < t.run.request.slotsPerDevice ↔ k + 1 < t.size := by
  have hfits : k + 1 < UInt32.size :=
    Nat.lt_of_le_of_lt (hcount ▸ hk) t.run.request.slotsPerDevice.toNat_lt
  rw [UInt32.lt_iff_toNat_lt, number, UInt32.toNat_ofNat_of_lt' hfits, hcount]

/-- After a slot nothing is seen until the gap is over or cut short. -/
theorem seen_rest (hcount : t.size = t.run.request.slotsPerDevice.toNat) (hk : k < t.size)
    (hpast : ∀ time ∈ b.raised, time ≤ b.now) :
    (t.rest k).Seen b fun marks _ b' => marks = [] ∧ b.Later b' ∧ t.Rested k b.now b' := by
  rw [rest]
  simp only [number_lt_iff hcount hk]
  split
  · next hrest =>
    intro full b' hrests
    refine ⟨rfl, hrests.later, fun hlast => absurd hlast (Nat.ne_of_lt hrest.1), ?_, ?_⟩
    · intro _ hnone
      cases hrests with
      | stopped hraised =>
        rw [hnone] at hraised
        cases hraised
      | full => rfl
      | cut => cases hnone
    · intro _ time htime
      cases hrests with
      | stopped =>
        have hle := hpast time htime
        exact ⟨Nat.le_trans hle (Nat.le_add_right _ _), (Nat.max_eq_left hle).symm⟩
      | full => cases htime
      | cut _ hlo hhi =>
        obtain rfl := Option.some.inj htime
        exact ⟨hhi, (Nat.max_eq_right hlo).symm⟩
  · next hnot =>
    have hgap : k + 1 < t.size → t.gap = 0 := by
      intro hlt
      have hzero : t.run.request.scenarioInterval = 0 := by
        by_contra hne
        exact hnot ⟨hlt, hne⟩
      rw [gap, hzero]
      rfl
    refine ⟨rfl, .refl b, fun _ => rfl, fun hlt _ => by rw [hgap hlt]; rfl, fun _ time htime => ?_⟩
    have hle := hpast time htime
    exact ⟨Nat.le_trans hle (Nat.le_add_right _ _), (Nat.max_eq_left hle).symm⟩

/-- What is done when a slot begins. -/
def opening (t : Tour) (g : Graph) (k : Nat) : RunTask Unit := do
  t.updateDevice fun p =>
    { p with scenarioIndex := .ofNat (t.scenarioIndex k), iteration := t.iteration k }
  t.announce g k

/-- What is done when a slot has ended. -/
def closing (t : Tour) (k : Nat) (d : DeviceResult) (done : ScenarioResult) :
    RunTask DeviceResult := do
  RunTask.emit (.scenarioComplete t.run.runId t.deviceId done)
  let result ← t.settle d done
  t.rest k
  return result

/-- A slot opens, is run, and closes. -/
theorem visit_eq : t.visit g k d = (do
    t.opening g k
    t.closing k d (← t.film g k)) := by
  rw [opening, bind_assoc]
  rfl

/-- The beginning of a slot takes no time. -/
theorem seen_opening (hg : t.scenarios[t.scenarioIndex k]? = some g) :
    (t.opening g k).Seen b fun marks r b' =>
      marks <+: [(b.now, t.startOf k)] ∧ b.Still b' ∧
        (r.isSome → marks = [(b.now, t.startOf k)]) := by
  refine (seen_update _).bind ?_ ?_
  · rintro _ b₁ ⟨rfl, hb₁⟩
    exact ⟨List.nil_prefix, hb₁, nofun⟩
  · rintro _ _ b₁ ⟨rfl, hb₁⟩
    refine (seen_announce hg).mono ?_
    rintro _ r b₂ ⟨rfl, hb₂⟩
    rw [hb₁.now_eq]
    exact ⟨List.prefix_rfl, hb₁.trans hb₂, fun _ => rfl⟩

/-- A slot ends at once, and then the tour rests. -/
theorem seen_closing (hcount : t.size = t.run.request.slotsPerDevice.toNat) (hk : k < t.size)
    (hg : t.scenarios[t.scenarioIndex k]? = some g) {done : ScenarioResult}
    (hid : done.scenarioId = g.id) (hiteration : done.iteration = t.iteration k)
    (hpast : ∀ time ∈ b.raised, time ≤ b.now) :
    (t.closing k d done).Seen b fun marks r b' =>
      marks = [(b.now, t.endOf k)] ∧ b.Later b' ∧ (r.isSome → t.Rested k b.now b') := by
  have hends : marksOf [(b.now, .emit (.scenarioComplete t.run.runId t.deviceId done))] =
      [(b.now, t.endOf k)] := by
    rw [endOf, scenarioId_eq hg, ← hid, ← hiteration]
    rfl
  refine (seen_emit _).bind (fun marks b₁ h => ⟨h.1.trans hends, h.2.toLater, nofun⟩) ?_
  rintro _ _ b₁ ⟨rfl, hb₁⟩
  have hsettle : (t.settle d done).Seen b₁ fun marks _ b' => marks = [] ∧ b₁.Still b' :=
    (seen_update _).bind (fun _ _ h => h) fun _ _ _ h => ⟨by rw [h.1]; rfl, h.2⟩
  refine hsettle.bind ?_ ?_
  · rintro _ b₂ ⟨rfl, hb₂⟩
    exact ⟨by rw [hends]; rfl, (hb₁.trans hb₂).toLater, nofun⟩
  · rintro _ _ b₂ ⟨rfl, hb₂⟩
    have hstill := hb₁.trans hb₂
    refine (seen_rest hcount hk (hstill.past hpast)).bind ?_ ?_
    · rintro _ b₃ ⟨rfl, hb₃, -⟩
      exact ⟨by rw [hends]; rfl, hstill.toLater.trans hb₃, nofun⟩
    · rintro _ _ b₃ ⟨rfl, hb₃, hrested⟩
      rw [hstill.now_eq] at hrested
      exact ⟨by rw [hends]; rfl, hstill.toLater.trans hb₃, fun _ => hrested⟩

/-- A slot that is run makes a round, or the beginning of one if the task crashes. -/
theorem seen_visit (hcount : t.size = t.run.request.slotsPerDevice.toNat) (hk : k < t.size)
    (hg : t.scenarios[t.scenarioIndex k]? = some g) (hb : b.raised = none) :
    (t.visit g k d).Seen b fun marks r b' => ∃ x : Round, x.began = b.now ∧ x.Sound ∧
      x.ended ≤ b'.now ∧ b.Later b' ∧ marks <+: t.marks k x ∧
      (r.isSome → marks = t.marks k x ∧ t.Rested k x.ended b') := by
  rw [visit_eq]
  refine (seen_opening hg).bind ?_ ?_
  · rintro marks b₁ ⟨hmarks, hb₁, -⟩
    exact ⟨⟨b.now, [], b.now⟩, rfl, ⟨Nat.le_refl _, List.forall_mem_nil _⟩, hb₁.now_le, hb₁.toLater,
      hmarks.trans (List.prefix_append [_] _), nofun⟩
  rintro _ _ b₁ ⟨-, hb₁, hmarks⟩
  obtain rfl := hmarks rfl
  refine seen_film.bind ?_ ?_
  · rintro _ b₂ ⟨⟨works, rfl, hworks⟩, hb₂, -⟩
    have hlater := hb₁.toLater.trans hb₂
    rw [hb₁.now_eq] at hworks
    exact ⟨⟨b.now, works, b₂.now⟩, rfl, ⟨hlater.now_le, hworks⟩, Nat.le_refl _, hlater,
      List.prefix_append (_ :: works.map _) _, nofun⟩
  rintro _ done b₂ ⟨⟨works, rfl, hworks⟩, hb₂, hdone⟩
  obtain ⟨hid, hiteration⟩ := hdone done rfl
  have hlater := hb₁.toLater.trans hb₂
  rw [hb₁.now_eq] at hworks
  have hpast : ∀ time ∈ b.raised, time ≤ b.now := by simp [hb]
  refine (seen_closing hcount hk hg hid hiteration (hlater.past hpast)).mono ?_
  rintro _ r b₃ ⟨rfl, hb₃, hrested⟩
  exact ⟨⟨b.now, works, b₂.now⟩, rfl, ⟨hlater.now_le, hworks⟩, hb₃.now_le, hlater.trans hb₃,
    List.prefix_rfl, fun hr => ⟨rfl, hrested hr⟩⟩

/-! ## Rounds -/

/-- Rounds keep the pace from one beat to another: there are not more of them than slots, the first
begins at once, each of the others when the gap after the one before it is over, and none after the
flag has been raised. -/
structure Paced (t : Tour) (b b' : Beat) (left : Nat) (rounds : List Round) : Prop where
  later : b.Later b'
  length_le : rounds.length ≤ left
  first : ∀ x ∈ rounds.head?, x.began = b.now
  spaced : rounds.IsChain fun x y => y.began = x.ended + t.gap
  sound : ∀ x ∈ rounds, x.Sound ∧ x.ended ≤ b'.now
  heeded : ∀ time ∈ b'.raised, ∀ x ∈ rounds, x.began ≤ time

/-- The last round is the last there is to be, and it has just ended, or the run has been stopped
before the gap after it was over, and then the gap ends with the stop. -/
def Halts (t : Tour) (left : Nat) (rounds : List Round) (stopAt : Option Nat) (time : Nat) : Prop :=
  ∃ x ∈ rounds.getLast?, rounds.length = left ∧ time = x.ended ∨
    rounds.length < left ∧ ∃ stop ∈ stopAt, stop ≤ x.ended + t.gap ∧ time = max x.ended stop

/-- No rounds keep any pace. -/
theorem paced_nil (h : b.Later b') (left : Nat) : t.Paced b b' left [] :=
  ⟨h, Nat.zero_le _, by simp, .nil, by simp, by simp⟩

/-- A round goes before others when the gap after it is over. -/
theorem Paced.cons {b'' : Beat} (h : t.Paced b' b'' left rounds) (hb : b.raised = none)
    (hlater : b.Later b') (hbegan : x.began = b.now) (hx : x.Sound) (hended : x.ended ≤ b'.now)
    (hnext : rounds ≠ [] → b'.now = x.ended + t.gap) :
    t.Paced b b'' (left + 1) (x :: rounds) where
  later := hlater.trans h.later
  length_le := Nat.succ_le_succ h.length_le
  first y hy := Option.some.inj hy ▸ hbegan
  spaced := List.isChain_cons.2 ⟨fun y hy => by
    have hne : rounds ≠ [] := by
      rintro rfl
      cases hy
    exact (h.first y hy).trans (hnext hne), h.spaced⟩
  sound := List.forall_mem_cons.2 ⟨⟨hx, Nat.le_trans hended h.later.now_le⟩, h.sound⟩
  heeded time htime := List.forall_mem_cons.2
    ⟨hbegan ▸ ((hlater.trans h.later).le_of_raised hb htime).1, h.heeded time htime⟩

/-- One round keeps the pace if it begins at once. -/
theorem paced_single (hb : b.raised = none) (hlater : b.Later b') (hbegan : x.began = b.now)
    (hx : x.Sound) (hended : x.ended ≤ b'.now) (left : Nat) : t.Paced b b' (left + 1) [x] :=
  (paced_nil (.refl b') left).cons hb hlater hbegan hx hended nofun

/-- A round is the last if no slot is left, or if the run has been stopped by now. -/
theorem Rested.halts (h : t.Rested k x.ended b) (hk : k + (left + 1) = t.size)
    (hover : 0 < left → b.raised.isSome) : t.Halts (left + 1) [x] b.raised b.now := by
  refine ⟨x, rfl, ?_⟩
  rcases Nat.eq_zero_or_pos left with rfl | hpos
  · exact .inl ⟨rfl, h.last hk⟩
  · obtain ⟨stop, hstop⟩ := Option.isSome_iff_exists.1 (hover hpos)
    exact .inr ⟨Nat.succ_lt_succ hpos, stop, hstop, h.cut (by omega) stop hstop⟩

/-- A round that goes before others makes no difference to how they end. -/
theorem Halts.cons {stopAt : Option Nat} {time : Nat} (h : t.Halts left rounds stopAt time)
    (x : Round) : t.Halts (left + 1) (x :: rounds) stopAt time := by
  obtain ⟨y, hy, hlast⟩ := h
  refine ⟨y, ?_, ?_⟩
  · rw [List.getLast?_cons]
    exact congrArg some (by rw [hy]; rfl)
  · exact hlast.imp (fun h => ⟨congrArg (· + 1) h.1, h.2⟩)
      fun h => ⟨Nat.succ_lt_succ h.1, h.2⟩

/-- The slots of a tour that is not stopped yet are run in rounds that keep the pace. -/
theorem seen_slots (hcount : t.size = t.run.request.slotsPerDevice.toNat) (hk : k + left = t.size)
    (hb : b.raised = none) :
    (t.slots left k d).Seen b fun marks r b' => ∃ rounds, t.Paced b b' left rounds ∧
      marks <+: t.row k rounds ∧ (r.isSome → marks = t.row k rounds ∧
        (0 < left → t.Halts left rounds b'.raised b'.now)) := by
  induction left generalizing k d b with
  | zero =>
    exact ⟨[], paced_nil (.refl b) 0, List.prefix_rfl, fun _ =>
      ⟨rfl, fun h => absurd h (Nat.lt_irrefl 0)⟩⟩
  | succ left ih =>
    obtain ⟨g, hg⟩ := t.scenario_of_lt (k := k) (by omega)
    have hrow : ∀ x, t.row k [x] = t.marks k x := fun x => List.append_nil _
    suffices h : (do t.slots left (k + 1) (← t.visit g k d)).Seen b fun marks r b' =>
        ∃ rounds, t.Paced b b' (left + 1) rounds ∧ marks <+: t.row k rounds ∧
          (r.isSome → marks = t.row k rounds ∧
            (0 < left + 1 → t.Halts (left + 1) rounds b'.raised b'.now)) by
      rw [slots, hg]
      apply Task.unfolds_isStopped_bind.2
      rw [hb]
      exact h
    refine (seen_visit hcount (by omega) hg hb).bind ?_ ?_
    · rintro marks b₁ ⟨x, hbegan, hx, hended, hb₁, hmarks, -⟩
      exact ⟨[x], paced_single hb hb₁ hbegan hx hended left, hrow x ▸ hmarks,
        fun h => absurd h Bool.false_ne_true⟩
    rintro _ d' b₁ ⟨x, hbegan, hx, hended, hb₁, -, hdone⟩
    obtain ⟨rfl, hrested⟩ := hdone rfl
    have hsingle := paced_single (t := t) hb hb₁ hbegan hx hended left
    have hwhole : t.marks k x ++ [] = t.row k [x] := rfl
    -- A stop during the slot or the rest after it leaves only slots that are skipped.
    cases hraised : b₁.raised with
    | some stop =>
      refine (seen_slots_of_raised hraised).mono ?_
      rintro _ r _ ⟨rfl, rfl⟩
      have hhalts := hrested.halts hk fun _ => by simp [hraised]
      exact ⟨[x], hsingle, hwhole ▸ List.prefix_rfl, fun _ => ⟨hwhole, fun _ => hhalts⟩⟩
    | none =>
      -- The induction hypothesis says nothing of the last slot, after which there is no rest.
      cases left with
      | zero =>
        have hhalts := hrested.halts hk fun h => absurd h (Nat.lt_irrefl 0)
        exact ⟨[x], hsingle, hwhole ▸ List.prefix_rfl, fun _ => ⟨hwhole, fun _ => hhalts⟩⟩
      | succ left =>
        refine (ih (by omega) hraised).mono ?_
        rintro marks r b₂ ⟨rounds, hpaced, hmarks, hend⟩
        refine ⟨x :: rounds, hpaced.cons hb hb₁ hbegan hx hended fun _ => ?_,
          (List.prefix_append_right_inj _).2 hmarks, fun hr => ?_⟩
        · exact hrested.full (by omega) hraised
        · obtain ⟨rfl, hhalts⟩ := hend hr
          exact ⟨rfl, fun _ => (hhalts (Nat.succ_pos left)).cons x⟩

/-- Time goes on when the rounds are over. -/
theorem Paced.later_end {b'' : Beat} (h : t.Paced b b' left rounds) (hb : b'.Later b'') :
    t.Paced b b'' left rounds where
  later := h.later.trans hb
  length_le := h.length_le
  first := h.first
  spaced := h.spaced
  sound x hx := ⟨(h.sound x hx).1, Nat.le_trans (h.sound x hx).2 hb.now_le⟩
  heeded time htime x hx := by
    rcases hb.fresh time htime with hraised | ⟨hle, -⟩
    · exact h.heeded time hraised x hx
    · obtain ⟨hsound, hended⟩ := h.sound x hx
      exact Nat.le_trans (Nat.le_trans hsound.1 hended) hle

/-- How a tour is over: its rounds have come to their end, or there is none as the run was stopped
before the first. -/
def Over (t : Tour) (rounds : List Round) (stopAt : Option Nat) (time : Nat) : Prop :=
  t.Halts t.size rounds stopAt time ∨ rounds = [] ∧ ∃ stop ∈ stopAt, stop ≤ time

/-- A stop that has come stays the same. -/
theorem Over.kept {stopAt stopAt' : Option Nat} {time : Nat} (h : t.Over rounds stopAt time)
    (hkept : ∀ stop ∈ stopAt, stop ∈ stopAt') : t.Over rounds stopAt' time := by
  rcases h with ⟨x, hx, hlast⟩ | ⟨hnil, stop, hstop, hle⟩
  · exact .inl ⟨x, hx, hlast.imp_right fun ⟨hlt, stop, hstop, h⟩ =>
      ⟨hlt, stop, hkept stop hstop, h⟩⟩
  · exact .inr ⟨hnil, stop, hkept stop hstop, hle⟩

/-- The slots of a tour are run in rounds that keep the pace, or in none if the run is stopped. -/
theorem seen_work (hcount : t.size = t.run.request.slotsPerDevice.toNat)
    (hpast : ∀ time ∈ b.raised, time ≤ b.now) (hsize : 0 < t.size) :
    (t.work d).Seen b fun marks r b' => ∃ (b₁ : Beat) (rounds : List Round),
      t.Paced b₁ b' t.size rounds ∧ marks <+: t.row 0 rounds ∧
      (r.isSome → marks = t.row 0 rounds ∧ t.Over rounds b'.raised b'.now) := by
  refine (seen_ask rfl rfl).bind ?_ ?_
  · rintro _ b₁ ⟨rfl, hb₁⟩
    exact ⟨b, [], paced_nil hb₁.toLater _, List.nil_prefix, nofun⟩
  rintro _ _ b₁ ⟨rfl, hb₁⟩
  have hslots : (t.slots t.size 0 d).Seen b₁ fun marks r b' => ∃ rounds,
      t.Paced b₁ b' t.size rounds ∧ marks <+: t.row 0 rounds ∧
      (r.isSome → marks = t.row 0 rounds ∧ t.Over rounds b'.raised b'.now) := by
    cases hraised : b₁.raised with
    | some stop =>
      refine (seen_slots_of_raised hraised).mono ?_
      rintro _ r _ ⟨rfl, rfl⟩
      refine ⟨[], paced_nil (.refl _) _, List.nil_prefix, fun _ => ⟨rfl, .inr ⟨rfl, stop, ?_⟩⟩⟩
      exact ⟨hraised, hb₁.past hpast stop hraised⟩
    | none =>
      refine (seen_slots hcount (Nat.zero_add _) hraised).mono ?_
      rintro marks r b' ⟨rounds, hpaced, hmarks, hend⟩
      exact ⟨rounds, hpaced, hmarks, fun hr => ⟨(hend hr).1, .inl ((hend hr).2 hsize)⟩⟩
  refine hslots.ensuring ?_
  rintro marks r b₂ ⟨rounds, hpaced, hmarks, hend⟩
  refine (seen_ask rfl rfl).mono ?_
  rintro _ ended b₃ ⟨rfl, hb₃⟩
  refine ⟨b₁, rounds, hpaced.later_end hb₃.toLater, by simpa using hmarks, fun hr => ?_⟩
  have hr' : r.isSome := by
    cases ended with
    | none => cases hr
    | some _ => exact hr
  obtain ⟨rfl, hover⟩ := hend hr'
  exact ⟨by simp, hb₃.now_eq ▸ hover.kept hb₃.kept⟩

/-- What is seen of a tour until it ends at a beat: rounds that keep the pace, and if nothing has
gone wrong, its end when they are over. -/
def Timed (t : Tour) (marks : List (Nat × Mark)) (r : Option TourResult) (b : Beat) : Prop :=
  ∃ (start : Beat) (rounds : List Round) (closed : Option Nat), t.Paced start b t.size rounds ∧
    (∀ time ∈ closed, t.Over rounds b.raised time) ∧
    marks <+: t.row 0 rounds ++ closed.toList.map (·, .closes) ∧
    ∀ d, r = some (.ok d) → closed.isSome ∧
      marks = t.row 0 rounds ++ closed.toList.map (·, .closes)

/-- A tour that has come to nothing. -/
theorem timed_nil {r : Option TourResult} (h : b.Later b') (hr : ∀ d, r ≠ some (.ok d)) :
    t.Timed [] r b' :=
  ⟨b, [], none, paced_nil h _, by simp, List.nil_prefix, fun d hd => absurd hd (hr d)⟩

/-- A question to the device on which no slot depends. -/
theorem seen_onDevice {c : DeviceCall} (hmark : (RunCall.device c).mark? = none) :
    (RunTask.onDevice (Task.ask c)).Seen b fun marks _ b' => marks = [] ∧ b.Later b' := by
  have honly : (RunTask.onDevice (Task.ask c)).Only (fun c' => c' = .device c) fun _ => True :=
    ⟨rfl, fun r => by cases r <;> trivial⟩
  refine Task.Unfolds.mono (honly.unfolds b) fun calls _ _ h => ⟨?_, h.2.1⟩
  exact marksOf_eq_nil fun e he => (h.1 e he).1 ▸ hmark

/-- The end of a tour is told at once. -/
theorem seen_end (f : DeviceProgress → DeviceProgress) :
    (do
      t.updateDevice f
      RunTask.emit (.deviceComplete t.run.runId d)
      return .ok d : RunTask TourResult).Seen b fun marks r b' =>
        b.Still b' ∧ marks <+: [(b.now, .closes)] ∧ (r.isSome → marks = [(b.now, .closes)]) := by
  refine (seen_update _).bind ?_ ?_
  · rintro _ b₁ ⟨rfl, hb₁⟩
    exact ⟨hb₁, List.nil_prefix, nofun⟩
  rintro _ _ b₁ ⟨rfl, hb₁⟩
  have hmarks : marksOf [(b₁.now, .emit (.deviceComplete t.run.runId d))] = [(b.now, .closes)] := by
    rw [← hb₁.now_eq]
    rfl
  refine (seen_emit _).bind ?_ ?_
  · rintro _ b₂ ⟨rfl, hb₂⟩
    exact ⟨hb₁.trans hb₂, by rw [hmarks]; exact List.prefix_rfl, nofun⟩
  · rintro _ _ b₂ ⟨rfl, hb₂⟩
    rw [hmarks]
    exact ⟨hb₁.trans hb₂, List.prefix_rfl, fun _ => rfl⟩

/-- The slots of a tour, and its end. -/
theorem seen_stay (f : DeviceResult → DeviceProgress → DeviceProgress)
    (hcount : t.size = t.run.request.slotsPerDevice.toNat)
    (hpast : ∀ time ∈ b.raised, time ≤ b.now) (hsize : 0 < t.size) :
    (do
      let d ← t.work d
      t.updateDevice (f d)
      RunTask.emit (.deviceComplete t.run.runId d)
      return .ok d : RunTask TourResult).Seen b t.Timed := by
  refine (seen_work hcount hpast hsize).bind ?_ ?_
  · rintro marks b₁ ⟨start, rounds, hpaced, hmarks, -⟩
    exact ⟨start, rounds, none, hpaced, by simp, by simpa using hmarks, nofun⟩
  rintro _ d b₁ ⟨start, rounds, hpaced, -, hend⟩
  obtain ⟨rfl, hover⟩ := hend rfl
  refine (seen_end _).mono ?_
  rintro marks r b₂ ⟨hb₂, hmarks, hwhole⟩
  refine ⟨start, rounds, some b₁.now, hpaced.later_end hb₂.toLater, ?_, ?_, fun d' hd' => ⟨rfl, ?_⟩⟩
  · rintro time ⟨⟩
    exact hover.kept hb₂.kept
  · exact (List.prefix_append_right_inj _).2 hmarks
  · rw [hwhole (by simp [hd'])]
    rfl

/-- A tour is made in rounds that keep the pace, and closes when they are over. -/
theorem seen_conduct (hcount : t.size = t.run.request.slotsPerDevice.toNat)
    (hpast : ∀ time ∈ b.raised, time ≤ b.now) (hsize : 0 < t.size) :
    t.conduct.Seen b t.Timed := by
  rw [conduct]
  refine (seen_onDevice rfl).bind ?_ ?_
  · rintro _ b₁ ⟨rfl, hb₁⟩
    exact timed_nil hb₁ (by simp)
  rintro _ (e | environment) b₁ ⟨rfl, hb₁⟩
  · exact timed_nil hb₁ (by simp)
  refine (seen_onDevice rfl).bind ?_ ?_
  · rintro _ b₂ ⟨rfl, hb₂⟩
    exact timed_nil hb₂ (by simp)
  rintro _ appInfo b₂ ⟨rfl, hb₂⟩
  refine (seen_update _).bind ?_ ?_
  · rintro _ b₃ ⟨rfl, hb₃⟩
    exact timed_nil hb₃.toLater (by simp)
  rintro _ _ b₃ ⟨rfl, hb₃⟩
  apply seen_instant_bind.2
  refine (seen_emit _).bind ?_ ?_
  · rintro _ b₄ ⟨rfl, hb₄⟩
    exact timed_nil hb₄.toLater (by simp)
  rintro _ _ b₄ ⟨rfl, hb₄⟩
  have hlater := hb₁.trans (hb₂.trans (hb₃.trans hb₄).toLater)
  exact seen_stay _ hcount (hlater.past hpast) hsize

end Tour

end DeviceSuite
