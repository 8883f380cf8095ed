import DeviceSuite.Proofs.Run.Deeds
import DeviceSuite.Proofs.Task.Minutes

/-!
# Attendance

A device attends for a report while the two are registered at the sink, and the minutes tell whether
it does. In the minutes of a tour, all that belongs to a slot happens while the device attends; in
the end it attends no more, though a slot may have crashed. A device that cannot describe itself
does nothing further.
-/

namespace DeviceSuite

/-- The events of a slot that is run. -/
def Event.inSlot : Event → Bool
  | scenarioStart .. | progress .. | stepStart .. | stepWaiting .. | stepComplete ..
  | scenarioComplete .. => true
  | _ => false

namespace RunCall

/-- The context that a call registers or takes out. -/
def attends? : RunCall → Option Context
  | register context | unregister context => some context
  | _ => none

/-- The calls of a slot that is run, from the event of its beginning to that of its end. -/
def inSlot : RunCall → Bool
  | device .environment | device .appInfo => false
  | device _ | save _ _ | startVideo _ | stopVideo _ | progress => true
  | emit e => e.inSlot
  | _ => false

/-- A call that is not about the sink's contexts, and is not of a slot. -/
def Idle (c : RunCall) : Prop := c.attends? = none ∧ c.inSlot = false

/-- A call of a slot is not about the attendance of a device. -/
theorem OfSlot.attends? {c : RunCall} (h : c.OfSlot) : c.attends? = none := by
  cases c <;> first | rfl | cases h

end RunCall

/-- What a minute makes of the attendance of a device for a report. -/
def Minute.attends? (key : String × String) : Minute RunCall.Reply Role → Option Bool
  | .answered _ (.register c) (some _) =>
    if (c.reportId, c.deviceId) = key then some true else none
  | .answered _ (.unregister c) _ => if (c.reportId, c.deviceId) = key then some false else none
  | _ => none

/-- Whether a device attends for a report at the end of the minutes. -/
def attending (key : String × String) (on : Bool) (minutes : List (Minute RunCall.Reply Role)) :
    Bool :=
  minutes.foldl (fun on m => (m.attends? key).getD on) on

/-- All that belongs to slots happens while a device attends for a report. -/
def AttendsSlots (key : String × String) : Bool → List (Minute RunCall.Reply Role) → Prop
  | _, [] => True
  | on, m :: rest =>
    (m.call.inSlot = true → on = true) ∧ AttendsSlots key ((m.attends? key).getD on) rest

section Minutes

variable {key : String × String} {on : Bool} {minutes more : List (Minute RunCall.Reply Role)}
  {m : Minute RunCall.Reply Role}

/-- Without minutes a device attends as before. -/
@[simp] theorem attending_nil : attending key on [] = on := rfl

/-- The first minute may change the attendance, and the others go on from there. -/
@[simp] theorem attending_cons :
    attending key on (m :: minutes) = attending key ((m.attends? key).getD on) minutes := rfl

/-- Minutes after others go on from the attendance that those have led to. -/
@[simp] theorem attending_append :
    attending key on (minutes ++ more) = attending key (attending key on minutes) more :=
  List.foldl_append

/-- Two records one after the other have slots only where a device attends, if both do from where
they begin. -/
theorem attendsSlots_append :
    AttendsSlots key on (minutes ++ more) ↔
      AttendsSlots key on minutes ∧ AttendsSlots key (attending key on minutes) more := by
  induction minutes generalizing on with
  | nil => simp [AttendsSlots]
  | cons m rest ih => simp [AttendsSlots, ih, and_assoc]

/-- A minute about something else changes no attendance. -/
theorem attends?_eq_none (h : ∀ c ∈ m.call.attends?, (c.reportId, c.deviceId) ≠ key) :
    m.attends? key = none := by
  cases m with
  | begun l c => rfl
  | answered l c reply =>
    cases c with
    | register c => cases reply <;> simp [Minute.attends?, h c rfl]
    | unregister c => simp [Minute.attends?, h c rfl]
    | _ => rfl

/-- Minutes that change no attendance. -/
theorem attending_eq (h : ∀ m ∈ minutes, m.attends? key = none) :
    attending key on minutes = on := by
  induction minutes with
  | nil => rfl
  | cons m rest ih =>
    obtain ⟨hm, hrest⟩ := List.forall_mem_cons.1 h
    rw [attending_cons, hm]
    exact ih hrest

/-- Only some of the minutes tell of the attendance of a device. -/
theorem attending_filter {keeps : Minute RunCall.Reply Role → Bool}
    (h : ∀ m ∈ minutes, keeps m = false → m.attends? key = none) :
    attending key on (minutes.filter keeps) = attending key on minutes := by
  induction minutes generalizing on with
  | nil => rfl
  | cons m rest ih =>
    obtain ⟨hm, hrest⟩ := List.forall_mem_cons.1 h
    cases hkeeps : keeps m with
    | true => rw [List.filter_cons_of_pos hkeeps, attending_cons, ih hrest, attending_cons]
    | false =>
      rw [List.filter_cons_of_neg (by simp [hkeeps]), ih hrest, attending_cons, hm hkeeps]
      rfl

/-- From a minute of a slot on, a device attends at least until the next of its minutes. -/
theorem AttendsSlots.attending (h : AttendsSlots key on minutes) (hm : minutes.getLast? = some m)
    (hslot : m.call.inSlot = true) : DeviceSuite.attending key on minutes = true := by
  obtain ⟨before, rfl⟩ := List.getLast?_eq_some_iff.1 hm
  obtain ⟨-, hlast, -⟩ := attendsSlots_append.1 h
  have hsame : m.attends? key = none := attends?_eq_none fun c hc => by
    have hnone : m.call.attends? = none := by
      cases hcall : m.call <;> first | rfl | rw [hcall] at hslot; cases hslot
    rw [hnone] at hc
    cases hc
  rw [attending_append, attending_cons, hsame, attending_nil]
  exact hlast hslot

/-- What happens in slots happens there from the beginning on. -/
theorem AttendsSlots.start (h : AttendsSlots key on minutes) (hstart : more <+: minutes) :
    AttendsSlots key on more := by
  obtain ⟨rest, rfl⟩ := hstart
  exact (attendsSlots_append.1 h).1

end Minutes

/-! ## The attendance of a tour -/

namespace RunTask

variable {α β : Type} {l : Role} {key : String × String} {x : RunTask α} {f : α → RunTask β}
  {on : Bool} {Q : Option α → Bool → Prop} {Q' : Option β → Bool → Prop}
  {H : RunCall → Prop} {P : α → Prop}

/-- All that a task does in slots happens while the device attends, and in the end it attends as `Q`
says. -/
def Attends (l : Role) (key : String × String) (x : RunTask α) (on : Bool)
    (Q : Option α → Bool → Prop) : Prop :=
  x.Ends fun told r =>
    AttendsSlots key on (minutesOf l told) ∧ Q r (attending key on (minutesOf l told))

/-- Tasks one after the other attend as each of them does. -/
theorem Attends.bind (h : x.Attends l key on Q) (hcrash : ∀ on', Q none on' → Q' none on')
    (hf : ∀ a on', Q (some a) on' → (f a).Attends l key on' Q') :
    (x >>= f).Attends l key on Q' := by
  apply Task.ends_bind.2
  apply Task.Ends.mono h
  rintro told (_ | a) ⟨hslots, hQ⟩
  · exact ⟨hslots, hcrash _ hQ⟩
  · apply Task.Ends.mono (hf a _ hQ)
    rintro more r ⟨hmore, hQ'⟩
    rw [minutesOf_append, attending_append]
    exact ⟨attendsSlots_append.2 ⟨hslots, hmore⟩, hQ'⟩

/-- A task that changes no attendance, and does nothing of a slot unless the device attends. -/
theorem attends_of_only (h : x.Only H P) (hH : ∀ c, H c → c.attends? = none)
    (hslot : ∀ c, H c → c.inSlot = true → on = true) :
    x.Attends l key on fun r on' => on' = on ∧ ∀ a ∈ r, P a := by
  apply h.ends.mono
  rintro told r ⟨hcalls, hr⟩
  have hmade : ∀ m ∈ minutesOf l told, H m.call := by
    intro m hm
    obtain ⟨a, ha, hm⟩ := List.mem_flatMap.1 hm
    cases a with
    | reply c r =>
      have hc := hcalls c (List.mem_filterMap.2 ⟨_, ha, rfl⟩)
      rcases List.mem_pair.1 hm with rfl | rfl <;> exact hc
    | _ => cases hm
  have hnone : ∀ m ∈ minutesOf l told, m.attends? key = none := fun m hm =>
    attends?_eq_none fun c hc => by
      rw [hH _ (hmade m hm)] at hc
      cases hc
  refine ⟨?_, attending_eq hnone, hr⟩
  revert hmade hnone
  induction minutesOf l told with
  | nil => exact fun _ _ => trivial
  | cons m rest ih =>
    intro hmade hnone
    obtain ⟨hm, hrest⟩ := List.forall_mem_cons.1 hmade
    obtain ⟨hm', hrest'⟩ := List.forall_mem_cons.1 hnone
    refine ⟨hslot _ hm, ?_⟩
    rw [hm']
    exact ih hrest hrest'

/-- A task that goes on after a part that is idle. -/
theorem attends_idle_bind (h : x.Only RunCall.Idle P) (hcrash : Q' none on)
    (hf : ∀ a, P a → (f a).Attends l key on Q') : (x >>= f).Attends l key on Q' := by
  have hx : x.Attends l key on fun r on' => on' = on ∧ ∀ a ∈ r, P a :=
    attends_of_only h (fun c hc => hc.1) fun c hc hslot => by rw [hc.2] at hslot; cases hslot
  apply hx.bind
  · rintro _ ⟨rfl, -⟩
    exact hcrash
  · rintro a _ ⟨rfl, hP⟩
    exact hf a (hP a rfl)

end RunTask

namespace Tour

open RunTask

variable {t : Tour} {l : Role} {d : DeviceResult}

/-- The device of a tour, and the report that it attends for. -/
def key (t : Tour) : String × String := (t.context.reportId, t.context.deviceId)

/-- The slots of a tour change no attendance. -/
theorem only_slots_attends (left k : Nat) :
    (t.slots left k d).Only (fun c => c.attends? = none) fun _ => True := by
  induction left generalizing k d with
  | zero => trivial
  | succ left ih =>
    have hupdate : ∀ f, (t.updateDevice f).Only (fun c => c.attends? = none) fun _ => True :=
      fun f => only_update.2 ⟨rfl, fun _ => trivial⟩
    rw [slots]
    split
    · trivial
    · apply Task.only_bind.2
      intro stopped
      cases stopped with
      | true =>
        apply Task.only_bind.2
        simp only [skip, settle, Task.only_bind, only_instant, only_update, Task.only_pure]
        exact fun ms => ⟨rfl, fun _ => ih _⟩
      | false =>
        apply Task.only_bind.2
        simp only [visit, announce, settle, Task.only_bind, only_emit, only_instant, Task.only_ask,
          only_update, Task.only_pure]
        apply (hupdate _).mono
        refine fun _ _ ms => ⟨rfl, fun _ => ⟨rfl, fun percent => ⟨rfl, fun _ => ?_⟩⟩⟩
        apply ((only_film k).weaken fun c h => h.1.attends?).mono
        exact fun r _ => ⟨rfl, fun _ => ⟨rfl, fun _ => (t.only_rest k).mono fun _ _ => ih _⟩⟩

/-- The slots are done while the device attends, and in the end it does so no more. -/
theorem attends_work : (t.work d).Attends l t.key false fun _ on => on = false := by
  apply Task.ends_bind.2
  apply Task.ends_ask.2
  intro reply
  cases reply with
  | none =>
    exact ⟨⟨by simp [Minute.call, RunCall.inSlot], by simp [Minute.call, RunCall.inSlot], trivial⟩,
      rfl⟩
  | some _ =>
    apply Task.ends_ensuring.2
    have hslots : (t.slots t.size 0 d).Attends l t.key true fun r on =>
        on = true ∧ ∀ a ∈ r, True :=
      attends_of_only (t.only_slots_attends t.size 0) (fun _ hc => hc) fun _ _ _ => rfl
    apply Task.Ends.mono hslots
    rintro told r ⟨hslots, hon, -⟩
    apply Task.ends_ask.2
    intro reply
    have hregister : (if (t.context.reportId, t.context.deviceId) = t.key then some true
        else none : Option Bool) = some true := if_pos rfl
    have hunregister : (if (t.context.reportId, t.context.deviceId) = t.key then some false
        else none : Option Bool) = some false := if_pos rfl
    simp only [minutesOf_cons, minutesOf_append, Answer.minutes, List.cons_append,
      List.nil_append, List.append_nil, minutesOf_nil, AttendsSlots, attendsSlots_append,
      attending_cons, attending_append, attending_nil, Minute.attends?, Option.getD_none,
      Option.getD_some, hregister, hunregister, Minute.call, RunCall.inSlot]
    simp [hslots]

/-- A tour does all its slots while its device attends, and in the end it does so no more. -/
theorem attends_conduct (t : Tour) (l : Role) :
    t.conduct.Attends l t.key false fun _ on => on = false := by
  have hdevice : ∀ {c : DeviceCall}, (RunCall.device c).Idle →
      (onDevice (Task.ask c)).Only RunCall.Idle fun _ => True :=
    fun hc => ⟨hc, fun r => by cases r <;> trivial⟩
  have hupdate : ∀ f, (t.updateDevice f).Only RunCall.Idle fun _ => True :=
    fun f => only_update.2 ⟨⟨rfl, rfl⟩, fun _ => trivial⟩
  have hinstant : instant.Only RunCall.Idle fun _ => True := only_instant.2 fun _ => trivial
  have hemit : ∀ {e : Event}, e.inSlot = false → (emit e).Only RunCall.Idle fun _ => True :=
    fun he => only_emit.2 ⟨⟨rfl, he⟩, fun _ => trivial⟩
  rw [conduct]
  refine attends_idle_bind (hdevice ⟨rfl, rfl⟩) rfl ?_
  rintro (e | environment) -
  · exact ⟨trivial, rfl⟩
  · refine attends_idle_bind (hdevice ⟨rfl, rfl⟩) rfl fun appInfo _ => ?_
    refine attends_idle_bind (hupdate _) rfl fun _ _ => ?_
    refine attends_idle_bind hinstant rfl fun ms _ => ?_
    refine attends_idle_bind (hemit rfl) rfl fun _ _ => ?_
    refine t.attends_work.bind (fun _ hon => hon) ?_
    rintro d _ rfl
    refine attends_idle_bind (hupdate _) rfl fun _ _ => ?_
    exact attends_idle_bind (hemit rfl) rfl fun _ _ => ⟨trivial, rfl⟩

/-- The first that a tour does is to ask its device to describe itself; if it cannot, that is
all. -/
theorem described_conduct (t : Tour) : t.conduct.Ends fun told _ =>
    ∃ reply rest, told = .reply (.device .environment) reply :: rest ∧
      ((∀ environment, reply ≠ some (.ok environment)) → rest = []) := by
  rw [conduct]
  apply Task.ends_bind.2
  rintro (_ | e | environment)
  · exact ⟨none, [], rfl, fun _ => rfl⟩
  · exact ⟨some (.error e), [], rfl, fun _ => rfl⟩
  · apply Task.ends_done.2
    dsimp only [Option.elim]
    exact Task.ends_of_forall fun told r _ => ⟨_, told, rfl, fun h => absurd rfl (h environment)⟩

end Tour

end DeviceSuite
