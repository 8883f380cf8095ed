import DeviceSuite.Proofs.Device.Heed
import DeviceSuite.Proofs.Run.Accord
import DeviceSuite.Proofs.Run.Slot

/-!
# Quiet after a stop

A task of a run is quiet when, with the stop flag raised, it begins no command, no look at the
screen and no recording. What it may still begin is little: it asks the device about itself, if it
has not done so yet, or it photographs the failure that it was about, saves the picture, and stops
the recording that goes on. Being quiet is told of the calls of the task alone, and is kept by each
further call that is allowed.
-/

namespace DeviceSuite

namespace RunCall

/-- The calls that a stop is to prevent: commands and looks, and new recordings. -/
def Acts : RunCall → Prop
  | device c => c.Acts
  | startVideo _ => True
  | _ => False

/-- What a call makes of the recording: one that goes on, or none. -/
def recording? : RunCall → Option (Option Context)
  | startVideo context => some (some context)
  | stopVideo _ => some none
  | _ => none

/-- Whether there is a picture that nothing has been told of. -/
def pictured? : RunCall → Option Bool
  | device .screenshot => some true
  | emit _ => some false
  | _ => none

/-- To keep the books is nothing that a stop is to prevent. -/
theorem not_acts_of_bookkeeping {c : RunCall} (h : c.isOutward = false) : ¬ c.Acts := by
  cases c <;> first | exact id | cases h

/-- To keep the books neither starts nor stops a recording. -/
theorem recording?_of_bookkeeping {c : RunCall} (h : c.isOutward = false) :
    c.recording? = none := by
  cases c <;> first | rfl | cases h

/-- To keep the books is not to take a picture. -/
theorem pictured?_of_bookkeeping {c : RunCall} (h : c.isOutward = false) :
    c.pictured? ≠ some true := by
  cases c <;> simp_all [isOutward, pictured?]

end RunCall

/-- The event that tells of a failed step. -/
def Event.IsFailure : Event → Prop
  | stepComplete _ _ _ step => step.status = .failed
  | _ => False

namespace Calls

variable {own : Calls} {e : Begun RunCall Role}

/-- The recording that goes on. -/
def recording? (own : Calls) : Option Context := (latest? RunCall.recording? own).join

/-- Whether there is a picture that nothing has been told of. -/
def pictured (own : Calls) : Bool := (latest? RunCall.pictured? own).getD false

/-- What has been begun beyond the books with the stop flag raised. -/
def late (own : Calls) : List RunCall :=
  (own.filter fun e => e.stopped && e.call.isOutward).map (·.call)

/-- A recording goes on when something else is called. -/
theorem recording?_append_of_none (h : e.call.recording? = none) :
    recording? (own ++ [e]) = recording? own := by
  rw [recording?, latest?_append, h, Option.none_or, recording?]

/-- The last call about a recording says whether one goes on. -/
theorem recording?_append_of_some {r : Option Context} (h : e.call.recording? = some r) :
    recording? (own ++ [e]) = r := by
  rw [recording?, latest?_append, h, Option.some_or, Option.join_some]

/-- Where there is no picture, only a new one is to be told of. -/
theorem pictured_append_of_false (h : pictured own = false) (he : e.call.pictured? ≠ some true) :
    pictured (own ++ [e]) = false := by
  rw [pictured, latest?_append]
  rcases hp : e.call.pictured? with _ | _ | _
  · exact h
  · rfl
  · exact absurd hp he

/-- What is begun in time or only keeps the books is not late. -/
theorem late_append_of_not (h : (e.stopped && e.call.isOutward) = false) :
    late (own ++ [e]) = late own := by
  simp [late, List.filter_append, h]

/-- What is begun beyond the books with the stop flag raised is late. -/
theorem late_append_of_late (h : (e.stopped && e.call.isOutward) = true) :
    late (own ++ [e]) = late own ++ [e.call] := by
  simp [late, List.filter_append, h]

/-- What a task may begin with the stop flag raised, in this order: it asks the device about
itself, or it photographs a failure, saves the picture, and stops the recording. -/
def Parting (calls : List RunCall) : Prop :=
  calls.Sublist [.device .environment, .device .appInfo] ∨
    ∃ context artifact,
      calls.Sublist [.device .screenshot, .save context artifact, .stopVideo context]

/-- The calls of a task that is quiet after a stop. -/
structure Quiet (own : Calls) : Prop where
  final : own.Pairwise fun e e' => e.stopped = true → e'.stopped = true
  silent : ∀ e ∈ own, e.stopped = true → ¬ e.call.Acts
  parting : Parting (late own)
  /-- A recording is stopped only if it goes on. -/
  matched : ∀ (earlier : Calls) (e : Begun RunCall Role) (context : Context),
    earlier ++ [e] <+: own → e.call = .stopVideo context → recording? earlier = some context
  /-- What is told first after a picture is that a step failed. -/
  failure : ∀ (earlier : Calls) (e : Begun RunCall Role) (event : Event),
    earlier ++ [e] <+: own → e.call = .emit event → pictured earlier = true → event.IsFailure

/-- A task that has made some calls may begin one more and be quiet. -/
structure Allowed (own : Calls) (e : Begun RunCall Role) : Prop where
  silent : e.stopped = true → ¬ e.call.Acts
  parting : e.stopped = true → e.call.isOutward = true → Parting (late own ++ [e.call])
  matched : ∀ context, e.call = .stopVideo context → recording? own = some context
  failure : ∀ event, e.call = .emit event → pictured own = true → event.IsFailure

/-- Who calls nothing is quiet. -/
theorem quiet_nil : Quiet [] where
  final := .nil
  silent _ he := absurd he List.not_mem_nil
  parting := .inl (List.nil_sublist _)
  matched _ _ _ h := absurd (List.prefix_nil.1 h) (List.concat_ne_nil _ _)
  failure _ _ _ h := absurd (List.prefix_nil.1 h) (List.concat_ne_nil _ _)

/-- A task that is quiet stays so with a call that is allowed. -/
theorem Quiet.append (h : Quiet own) (hfinal : ∀ e' ∈ own, e'.stopped = true → e.stopped = true)
    (he : Allowed own e) : Quiet (own ++ [e]) where
  final := List.pairwise_append.2 ⟨h.final, List.pairwise_singleton _ _, fun e' he' e'' he'' =>
    List.mem_singleton.1 he'' ▸ hfinal e' he'⟩
  silent e' he' := (List.mem_append.1 he').elim (h.silent e') fun he' =>
    List.mem_singleton.1 he' ▸ he.silent
  parting := by
    cases hlate : e.stopped && e.call.isOutward with
    | false =>
      rw [late_append_of_not hlate]
      exact h.parting
    | true =>
      obtain ⟨hstop, hout⟩ := Bool.and_eq_true_iff.1 hlate
      rw [late_append_of_late hlate]
      exact he.parting hstop hout
  matched earlier e' context hprefix hcall := by
    rcases List.prefix_concat_iff.1 hprefix with heq | hold
    · obtain ⟨rfl, hlast⟩ := List.append_inj' heq rfl
      exact he.matched context (List.singleton_inj.1 hlast ▸ hcall)
    · exact h.matched earlier e' context hold hcall
  failure earlier e' event hprefix hcall hpicture := by
    rcases List.prefix_concat_iff.1 hprefix with heq | hold
    · obtain ⟨rfl, hlast⟩ := List.append_inj' heq rfl
      exact he.failure event (List.singleton_inj.1 hlast ▸ hcall) hpicture
    · exact h.failure earlier e' event hold hcall hpicture

/-- A call that only keeps the books is allowed when nothing is left to tell. -/
theorem allowed_of_bookkeeping (hc : e.call.isOutward = false)
    (htold : pictured own = true → ∀ event, e.call = .emit event → event.IsFailure) :
    Allowed own e where
  silent _ := RunCall.not_acts_of_bookkeeping hc
  parting _ hout := by rw [hc] at hout; cases hout
  matched context h := by rw [h] at hc; cases hc
  failure event h hp := htold hp event h

/-- To keep the books is always allowed, as long as no event is told. -/
theorem allowed_of_untold (hc : e.call.isOutward = false) (htold : e.call.pictured? = none) :
    Allowed own e :=
  allowed_of_bookkeeping hc fun _ event hevent => by
    rw [hevent] at htold
    cases htold

/-- A call that reaches beyond the books is allowed if it comes in time or belongs to the parting,
and neither stops a recording nor tells anything. -/
theorem allowed_of_outward
    (hstop : e.stopped = true → ¬ e.call.Acts ∧ Parting (late own ++ [e.call]))
    (hvideo : ∀ context, e.call = .stopVideo context → recording? own = some context)
    (htold : e.call.pictured? ≠ some false) : Allowed own e where
  silent h := (hstop h).1
  parting h _ := (hstop h).2
  matched := hvideo
  failure _ h := absurd (congrArg RunCall.pictured? h) htold

/-- Whoever begins fewer calls late may do so. -/
theorem Parting.sublist {calls calls' : List RunCall} (h : Parting calls)
    (hsub : calls'.Sublist calls) : Parting calls' :=
  h.imp hsub.trans fun h => by
    obtain ⟨context, artifact, h⟩ := h
    exact ⟨context, artifact, hsub.trans h⟩

end Calls

namespace Books

variable {b : Books} {l : Role} {c : RunCall}

/-- The books of a run whose tasks are quiet. -/
structure Silent (b : Books) : Prop where
  heard : ∀ e ∈ b.calls, e.stopped = true → b.state.stopRequested = true
  quiet : ∀ l, Calls.Quiet (b.own l)

/-- The books stay quiet when an allowed call is made. -/
theorem Silent.call (h : b.Silent) (hc : c.Steady)
    (hmay : Calls.Allowed (b.own l) ⟨l, c, b.state.stopRequested⟩) :
    ((b.note l c).answered l c).Silent where
  heard e he hstop := by
    rw [stopRequested_call hc]
    rw [calls_call] at he
    rcases List.mem_append.1 he with he | he
    · exact h.heard e he hstop
    · rw [List.mem_singleton.1 he] at hstop
      exact hstop
  quiet other := by
    by_cases hl : other = l
    · subst hl
      rw [own_call]
      exact (h.quiet other).append (fun e he => h.heard e ((List.mem_filter.1 he).1)) hmay
    · rw [own_call_of_ne hl]
      exact h.quiet other

/-- The stop flag stays raised, and what begins from then on begins with the flag raised. -/
structure Heeds (b b' : Books) : Prop where
  stopped : b.state.stopRequested = true → b'.state.stopRequested = true
  calls : ∃ more, b'.calls = b.calls ++ more ∧
    (b.state.stopRequested = true → ∀ e ∈ more, e.stopped = true)

/-- Without calls the books heed a stop as long as the flag stays raised. -/
theorem Heeds.of_calls {b' : Books} (hstop : b.state.stopRequested = true →
    b'.state.stopRequested = true) (hcalls : b'.calls = b.calls) : b.Heeds b' :=
  ⟨hstop, [], by rw [hcalls, List.append_nil], fun _ _ h => absurd h List.not_mem_nil⟩

/-- What heeds a stop and goes on heeding it heeds it. -/
theorem Heeds.trans {b' b'' : Books} (h : b.Heeds b') (h' : b'.Heeds b'') : b.Heeds b'' := by
  obtain ⟨more, hmore, hlate⟩ := h.calls
  obtain ⟨more', hmore', hlate'⟩ := h'.calls
  refine ⟨h'.stopped ∘ h.stopped, more ++ more', ?_, ?_⟩
  · rw [hmore', hmore, List.append_assoc]
  · intro hstop e he
    exact (List.mem_append.1 he).elim (hlate hstop e) (hlate' (h.stopped hstop) e)

end Books

/-- The tasks of a run are quiet after a stop. -/
def silence (run : RunState) (n : Nat) : Accord run n where
  keeps := Books.Silent
  minds _ _ _ := True
  may l b c := Calls.Allowed (b.own l) ⟨l, c, b.state.stopRequested⟩
  ends _ _ _ := True
  grows := Books.Heeds
  minds_refl _ _ := trivial
  minds_trans _ _ := trivial
  grows_refl _ := .of_calls id rfl
  grows_trans := .trans
  raise b := ⟨fun h => ⟨fun _ _ _ => rfl, h.quiet⟩, .of_calls (fun _ => rfl) rfl, fun _ => trivial⟩
  start b := ⟨fun h => ⟨h.heard, h.quiet⟩, .of_calls id rfl, fun _ => trivial⟩
  call {l b c} _ _ hk _ hc hmay _ := by
    have hheeds : b.Heeds ((b.note l c).answered l c) := by
      refine ⟨(Books.stopRequested_call hc).trans, _, b.calls_call l c, ?_⟩
      intro hstop e he
      exact List.mem_singleton.1 he ▸ hstop
    exact ⟨hk.call hc hmay, hheeds, fun _ _ _ _ => trivial⟩
  finish _ _ hk _ _ := ⟨⟨hk.heard, hk.quiet⟩, .of_calls id rfl, fun _ _ _ _ => trivial⟩

end DeviceSuite
