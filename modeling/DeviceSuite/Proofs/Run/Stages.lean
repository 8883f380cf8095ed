import DeviceSuite.Proofs.Run.Quiet
import DeviceSuite.Proofs.Run.Rules

/-!
# Stages of a quiet task

A task that keeps quiet knows of its own calls which were begun late, which recording it has to
stop, and whether a picture is left to be told of. The rules say how its calls lead from one such
stage to the next; a command or a look is begun only where the stop flag was read and nobody else
has gone on since.
-/

namespace DeviceSuite

open Calls

namespace Calls

variable {own : Calls} {e : Begun RunCall Role} {K K' : List RunCall → Prop}
  {video : Option Context}

/-- What a task has begun too late, and the recording that it has to stop. -/
structure Stage (K : List RunCall → Prop) (video : Option Context) (own : Calls) : Prop where
  late : K (late own)
  video : ∀ context, video = some context → recording? own = some context

/-- A stage at which no picture is left to be told of. -/
structure Told (K : List RunCall → Prop) (video : Option Context) (own : Calls) : Prop
    extends Stage K video own where
  told : pictured own = false

/-- Who has no recording to stop is at any stage that what it has begun late allows. -/
theorem Told.idle {K : List RunCall → Prop} {own : Calls} (hlate : K (late own))
    (htold : pictured own = false) : Told K none own :=
  ⟨⟨hlate, fun _ h => by cases h⟩, htold⟩

/-- A stage may be told with less. -/
theorem Stage.mono (h : Stage K video own) (hK : ∀ calls, K calls → K' calls) :
    Stage K' video own :=
  ⟨hK _ h.late, h.video⟩

/-- A stage without a picture may be told with less. -/
theorem Told.mono (h : Told K video own) (hK : ∀ calls, K calls → K' calls) : Told K' video own :=
  ⟨h.toStage.mono hK, h.told⟩

/-- A call that only keeps the books does not change the stage. -/
theorem Stage.book (h : Stage K video own) (he : e.call.isOutward = false) :
    Stage K video (own ++ [e]) := by
  constructor
  · rw [late_append_of_not (by rw [he, Bool.and_false])]
    exact h.late
  · intro context hvideo
    rw [recording?_append_of_none (RunCall.recording?_of_bookkeeping he)]
    exact h.video context hvideo

/-- To keep the books leaves the stage as it is. -/
theorem Told.book (h : Told K video own) (he : e.call.isOutward = false) :
    Told K video (own ++ [e]) :=
  ⟨h.toStage.book he, pictured_append_of_false h.told (RunCall.pictured?_of_bookkeeping he)⟩

/-- A call that neither starts nor stops a recording does not change which one goes on. -/
theorem Stage.reach (h : Stage K video own) (hK : K' (Calls.late (own ++ [e])))
    (he : e.call.recording? = none) : Stage K' video (own ++ [e]) := by
  refine ⟨hK, ?_⟩
  intro context hvideo
  rw [recording?_append_of_none he]
  exact h.video context hvideo

/-- A call of the parting is allowed when nothing but the calls before it was begun late. -/
theorem outward {l : Role} {c : RunCall} {calls : List RunCall} (h : (late own).Sublist calls)
    (hacts : ¬ c.Acts) (hparting : Parting (calls ++ [c]))
    (hvideo : ∀ context, c = .stopVideo context → recording? own = some context)
    (htold : c.pictured? ≠ some false) (stopped : Bool) :
    Allowed own ⟨l, c, stopped⟩ ∧ (late (own ++ [⟨l, c, stopped⟩])).Sublist (calls ++ [c]) := by
  have hnext : (late own ++ [c]).Sublist (calls ++ [c]) := h.append (List.Sublist.refl _)
  refine ⟨allowed_of_outward (fun _ => ⟨hacts, hparting.sublist hnext⟩) hvideo htold, ?_⟩
  cases hlate : stopped && c.isOutward with
  | false =>
    rw [late_append_of_not hlate]
    exact h.trans (List.sublist_append_left _ _)
  | true =>
    rw [late_append_of_late hlate]
    exact hnext

end Calls

namespace Books

variable {run : RunState} {n : Nat} {l : Role} {b b' : Books} {P Q : Calls → Prop} {c : RunCall}

/-- A task that has not ended has begun calls of which `P` is true, and none of them late unless a
stop is requested. -/
structure Stands (run : RunState) (l : Role) (P : Calls → Prop) (b : Books) : Prop where
  still : b.Open run l
  heard : late (b.own l) ≠ [] → b.state.stopRequested = true
  calls : P (b.own l)

/-- Where a task stands may be told with less. -/
theorem Stands.mono (h : b.Stands run l P) (hP : ∀ own, P own → Q own) : b.Stands run l Q :=
  ⟨h.still, h.heard, hP _ h.calls⟩

/-- A task stands where it does while the others go on. -/
theorem Stands.drift (h : b.Stands run l P) (hd : ((silence run n).terms l).drifts b b') :
    b'.Stands run l P := by
  have hown := hd.1.own h.still
  constructor
  case still => exact hd.1.still h.still
  case heard =>
    intro hlate
    rw [hown] at hlate
    exact hd.1.stopped (h.heard hlate)
  case calls =>
    rw [hown]
    exact h.calls

/-- A task that makes a steady call stands where that leads. -/
theorem Stands.call (h : b.Stands run l P) (hc : c.Steady)
    (hP : Q (b.own l ++ [⟨l, c, b.state.stopRequested⟩])) :
    ((b.note l c).answered l c).Stands run l Q := by
  refine ⟨h.still.call c, ?_, ?_⟩
  · intro hlate
    rw [stopRequested_call hc]
    rw [own_call] at hlate
    cases hstop : b.state.stopRequested with
    | true => rfl
    | false =>
      rw [hstop, late_append_of_not (Bool.false_and _)] at hlate
      rw [← hstop]
      exact h.heard hlate
  · rw [own_call]
    exact hP

/-- Nothing has been begun late as long as no stop is requested. -/
theorem Stands.fresh {K : List RunCall → Prop} {video : Option Context}
    (h : b.Stands run l (Told K video)) (hstop : b.state.stopRequested = false) :
    b.Stands run l (Told (· = []) video) := by
  have hnone : late (b.own l) = [] := by
    apply Decidable.byContradiction
    intro hlate
    rw [h.heard hlate] at hstop
    cases hstop
  exact ⟨h.still, h.heard, ⟨hnone, h.calls.video⟩, h.calls.told⟩

/-- A call that is allowed begins, and goes as it goes. -/
theorem Stands.admits (h : b.Stands run l P) (hc : c.Steady)
    (hmay : Allowed (b.own l) ⟨l, c, b.state.stopRequested⟩)
    (hP : Q (b.own l ++ [⟨l, c, b.state.stopRequested⟩])) :
    ((silence run n).terms l).Admits c (fun b' _ => b'.Stands run l Q ∧
      (c.pace = .instant → b'.state.stopRequested = b.state.stopRequested)) b := by
  apply Accord.admits ⟨h.still, hc, hmay⟩
  intro b₂ reply hd hinstant _ _
  have hcall := h.call hc hP
  by_cases hp : c.pace = .instant
  · rw [hinstant (by rw [hp]; rfl)]
    exact ⟨hcall, fun _ => stopRequested_call hc⟩
  · rw [Accord.answered_of_pace hp] at hcall ⊢
    exact ⟨hcall.drift hd, fun h => absurd h hp⟩

end Books

open Books

section Rules

variable {run : RunState} {n : Nat} {l : Role} {b : Books} {P Q : Calls → Prop} {c : RunCall}
  {K : List RunCall → Prop} {video : Option Context}

/-- A call that is allowed whether the stop flag is raised or not. -/
theorem Books.Stands.abides_call (h : b.Stands run l P) (hc : c.Steady)
    (hcall : ∀ own stopped, P own → (late own ≠ [] → stopped = true) →
      Allowed own ⟨l, c, stopped⟩ ∧ Q (own ++ [⟨l, c, stopped⟩])) :
    (Task.ask c).Abides ((silence run n).terms l)
      (Task.Upon (fun b => b.Open run l) fun _ => Books.Stands run l Q) b := by
  apply Task.abides_ask.2
  intro b' hw
  have h' := h.drift (Terms.drifts_of_waits hw)
  obtain ⟨hmay, hP⟩ := hcall _ _ h'.calls h'.heard
  apply (h'.admits hc hmay hP).mono
  intro b'' reply hb''
  cases reply with
  | none => exact hb''.1.still
  | some a => exact hb''.1

/-- A call that begins where no stop is requested. -/
theorem Books.Stands.abides_free (h : b.Stands run l P) (hc : c.Steady) (hp : c.pace.waits = false)
    (hstop : b.state.stopRequested = false)
    (hcall : ∀ own, P own → Allowed own ⟨l, c, false⟩ ∧ Q (own ++ [⟨l, c, false⟩])) :
    (Task.ask c).Abides ((silence run n).terms l)
      (Task.Upon (fun b => b.Open run l) fun _ b => b.Stands run l Q ∧
        (c.pace = .instant → b.state.stopRequested = false)) b := by
  apply Task.abides_ask.2
  intro b' hw
  have hp' : (((silence run n).terms l).pace c).waits = false := hp
  obtain rfl : b' = b := by simpa [Terms.waits, hp'] using hw
  obtain ⟨hmay, hP⟩ := hcall _ h.calls
  rw [← hstop] at hmay hP
  apply (h.admits hc hmay hP).mono
  intro b'' reply hb''
  rw [hstop] at hb''
  cases reply with
  | none => exact hb''.1.still
  | some a => exact hb''

/-- Keeping the books is always allowed once everything is told. -/
theorem Books.Stands.abides_book {α : Type} {t : RunTask α} {Q : α → Prop}
    (h : b.Stands run l (Told K video)) (ht : t.Only RunCall.Bookkeeping Q) :
    t.Abides ((silence run n).terms l)
      (Task.Upon (fun b => b.Open run l) fun a b => Q a ∧ b.Stands run l (Told K video)) b := by
  apply (Accord.abides_only (J := Books.Stands run l (Told K video)) ht h
    (fun b b' hb hd => hb.drift hd) _).upon (fun _ h => h.still) fun _ _ h => h
  intro c b hc hb
  have hallowed : Allowed (b.own l) ⟨l, c, b.state.stopRequested⟩ :=
    allowed_of_bookkeeping hc.2 fun htold => by
      rw [hb.calls.told] at htold
      cases htold
  exact ⟨⟨hb.still, hc.1, hallowed⟩, hb.call hc.1 (hb.calls.book hc.2)⟩

/-- What keeps the books at once leaves no room for a stop. -/
theorem Books.Stands.abides_book_free (h : b.Stands run l (Told K video)) (hc : c.Bookkeeping)
    (hp : c.pace = .instant) (hstop : b.state.stopRequested = false) :
    (Task.ask c).Abides ((silence run n).terms l)
      (Task.Upon (fun b => b.Open run l) fun _ b => b.Stands run l (Told K video) ∧
        b.state.stopRequested = false) b := by
  have hcall : ∀ own, Told K video own →
      Allowed own ⟨l, c, false⟩ ∧ Told K video (own ++ [⟨l, c, false⟩]) := by
    intro own hown
    refine ⟨allowed_of_bookkeeping hc.2 ?_, hown.book hc.2⟩
    intro htold
    rw [hown.told] at htold
    cases htold
  exact (h.abides_free hc.1 (by rw [hp]; rfl) hstop hcall).upon (fun _ h => h)
    fun _ b hb => ⟨hb.1, hb.2 hp⟩

/-- Keeping the books without telling anything is allowed at every stage. -/
theorem Books.Open.abides_untold (h : b.Open run l) (hc : c.Bookkeeping) (hp : c.pace = .instant)
    (htold : c.pictured? = none) :
    (Task.ask c).Abides ((silence run n).terms l)
      (Task.Upon (fun b => b.Open run l) fun _ b => b.Open run l) b := by
  have hallowed : Allowed (b.own l) ⟨l, c, b.state.stopRequested⟩ := allowed_of_untold hc.2 htold
  apply Accord.abides_instant hp ⟨h, hc.1, hallowed⟩
  intro reply _
  cases reply with
  | none => exact h.call c
  | some a => exact h.call c

/-- A tour works its device only where no stop is requested. -/
theorem heeds_device : Task.Heeds (((silence run n).terms l).along RunCall.device fun _ r => r)
    (Books.Stands run l (Told (· = []) video))
    (fun b => b.Stands run l (Told (· = []) video) ∧ b.state.stopRequested = false)
    (fun b => b.Open run l) where
  drift h hd := h.drift hd
  free h hread := ⟨h, Eq.symm hread⟩
  keeps h := h.1
  crash h := h.still
  call c b hc hb := by
    have hquiet : (RunCall.device c).pictured? = none := by cases c <;> first | rfl | cases hc
    have hcall : (Task.ask (RunCall.device c)).Abides ((silence run n).terms l)
        (Task.Upon (fun b => b.Open run l) fun _ b => b.Stands run l (Told (· = []) video) ∧ _) b :=
      hb.1.abides_free (Q := Told (· = []) video) (RunCall.steady_of_outward rfl)
        rfl hb.2 fun own hown => by
        refine ⟨allowed_of_outward (fun h => by cases h) (fun _ h => by cases h)
          (by rw [hquiet]; decide), hown.reach ?_ rfl, ?_⟩
        · rw [late_append_of_not rfl]
          exact hown.late
        · exact pictured_append_of_false hown.told (by rw [hquiet]; decide)
    apply Task.abides_along
    apply hcall.mono
    intro b r hr
    cases r with
    | none => exact hr
    | some a => exact hr.1

end Rules

end DeviceSuite
