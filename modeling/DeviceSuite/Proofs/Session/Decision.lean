import DeviceSuite.Proofs.Run.Clockwork
import DeviceSuite.Proofs.Session.Ending

/-!
# The turn that decides a run

How a run ends is decided in one turn of its lead, the one in which the lead goes on after the
tours: `Session.Learns`. All tours have ended by then, but since the last of them has, other tasks
may have had their turns. A stop that they have requested still counts, and one that is requested
later does not. A lead itself changes neither the flag nor the reports of the tours, so what its
call for the tours finds is what was there before the turn.
-/

namespace DeviceSuite

namespace World

variable {σ : Type} {w w' : World σ} {n m : Nat} {c : RunCall}

/-- How many tours a run has, and what they have reported. -/
def reports? (w : World σ) (n : Nat) : Option (Nat × List (Nat × Option TourResult)) :=
  (w.crew? n).map fun crew => (crew.size, crew.reports)

/-- The flag of a run is as it was, and so are the reports of its tours. -/
structure Unmoved (n : Nat) (w w' : World σ) : Prop where
  flag : w'.isStopped n = w.isStopped n
  reports : w'.reports? n = w.reports? n

/-- A change of a crew that leaves the reports as they are. -/
theorem reports?_updateCrew (w : World σ) (m : Nat) {f : Crew → Crew}
    (hsize : ∀ crew, (f crew).size = crew.size)
    (hreports : ∀ crew, (f crew).reports = crew.reports) :
    (w.updateCrew m f).reports? n = w.reports? n := by
  by_cases hm : m = n
  · subst hm
    cases hcrew : w.crew? m with
    | none =>
      have hlen : w.crews.length ≤ m := List.getElem?_eq_none_iff.1 hcrew
      simp [reports?, updateCrew, crew?, hlen]
    | some crew => simp [reports?, updateCrew_crew?_self hcrew, hcrew, hsize, hreports]
  · rw [reports?, reports?, updateCrew_crew?_of_ne hm]

/-- A call that is to be made moves nothing. -/
theorem Unmoved.announce (h : w.Unmoved n w') (l : Role) (c : RunCall) :
    w.Unmoved n (w'.announce l c) := by
  cases c with
  | tours =>
    have hsame := w'.reports?_updateCrew (n := n) l.run (f := Crew.start) (fun _ => rfl) fun _ => rfl
    exact ⟨h.flag, hsame.trans h.reports⟩
  | _ => exact ⟨h.flag, h.reports⟩

/-- A call that reaches no device changes nothing when it begins. -/
theorem accept_of_bookkeeping (service : Service DeviceCall.Reply σ) (w : World σ) (l : Role)
    (hc : c.Bookkeeping) : (w.accept service l c).1 = w := by
  cases c with
  | device c => cases hc.2
  | _ => rfl

/-- The answer to a call that keeps the books moves nothing. -/
theorem Unmoved.answer (h : w.Unmoved n w') (service : Service DeviceCall.Reply σ) (l : Role)
    (hc : c.Bookkeeping) : w.Unmoved n (w'.answer service l c).1 :=
  ⟨(answer_isStopped service l hc.1).trans h.flag, by
    rw [reports?, answer_crew?, ← h.reports, reports?]⟩

/-- The end of a lead moves nothing. -/
theorem Unmoved.finish (h : w.Unmoved n w') (ending : Option RoleResult) :
    w.Unmoved n (w'.finish (.lead m) ending) := by
  have hsame := w'.reports?_updateCrew (n := n) m (f := (Crew.close · (RoleResult.lead? ending)))
    (fun _ => rfl) fun _ => rfl
  exact ⟨h.flag, hsame.trans h.reports⟩

/-- A strand of a lead that goes on moves nothing. -/
theorem unmoved_resume (service : Service DeviceCall.Reply σ) (n m : Nat)
    {strand : Strand RunCall.Reply RoleResult}
    (able : (host service).isAble w (.lead m) strand = true)
    (hm : strand.Makes RunCall.OfLead fun _ => True) :
    w.Unmoved n ((host service).resume (.lead m) strand w).1 := by
  have hkeeps : (host service).Keeps (.lead m) RunCall.OfLead (Unmoved n w)
      (fun _ => Unmoved n w) fun _ => Unmoved n w :=
    Host.keeps_of_phases (fun _ c _ hw => hw.announce _ c)
      (fun w' _ hc hw _ => by
        rw [show (host service).accept w' (.lead m) _ = w'.accept service (.lead m) _ from rfl,
          accept_of_bookkeeping service w' _ hc.1]
        exact hw)
      fun _ _ hc hw => hw.answer service _ hc.1
  have hstands : strand.Stands (Unmoved n w) (fun _ => Unmoved n w) (fun _ => Unmoved n w) w := by
    cases strand <;> first | exact ⟨rfl, rfl⟩ | trivial
  exact (hkeeps.resume able hm hstands).2.shared (fun _ hw => hw) (fun _ _ hw => hw)
    (fun _ _ hw => hw) fun _ r hw => hw.finish r

end World

namespace Session

variable {σ : Type} {s s' : Session σ} {calls more : Calls} {n i : Nat} {request : Request}
  {scenarios : List Graph} {e : Begun RunCall Role}

/-- In a turn of its lead, a run learns that all of its tours have ended: `joined` is the call that
was waiting for them, and it finds the flag as it is before the turn. -/
structure Learns (s : Session σ) (n i tours : Nat) (joined : Begun RunCall Role) : Prop where
  able : s.pool.isAble s.host i = true
  lead : ∃ strand, s.pool.strands[i]? = some (.lead n, strand)
  ended : ∃ crew, s.world.crew? n = some crew ∧
    ∀ place < tours, place ∈ crew.reports.map (·.1)
  call : joined ∈ s.callsOfTurn i ∧ joined.call = .tours
  stopped : joined.stopped = s.world.isStopped n

/-- A call has begun in a turn, before and after which the session has its history. -/
theorem Underway.exists_turn (hu : Underway s calls n request scenarios) (he : e ∈ calls) :
    ∃ s' before i more, Underway s' before n request scenarios ∧
      s'.pool.isAble s'.host i = true ∧ e ∈ s'.callsOfTurn i ∧
      calls = before ++ (s'.callsOfTurn i ++ more) ∧ History (s'.takeTurn i) more s := by
  induction hu with
  | launch => cases he
  | @next s s₁ calls more _ _ _ hu hnext ih =>
    rcases List.mem_append.1 he with he | he
    · obtain ⟨s', before, i, later, hu', able, hmem, rfl, hhistory⟩ := ih he
      refine ⟨s', before, i, later ++ more, hu', able, hmem, ?_, hhistory.step hnext⟩
      simp only [List.append_assoc]
    · cases hnext with
      | turn able => exact ⟨s, calls, _, [], hu, able, he, by rw [List.append_nil], .refl _⟩
      | _ => cases he

/-- The turn of a lead moves nothing of its run. -/
theorem Underway.unmoved_takeTurn (hu : Underway s calls n request scenarios)
    (able : s.pool.isAble s.host i = true) {strand : Strand RunCall.Reply RoleResult}
    (hi : s.pool.strands[i]? = some (.lead n, strand)) :
    s.world.Unmoved n (s.takeTurn i).world := by
  obtain ⟨l, strand', hi', hable, hworld, -⟩ := takeTurn_spec able
  obtain ⟨rfl, rfl⟩ := Prod.mk.inj (Option.some.inj (hi.symm.trans hi'))
  obtain ⟨-, crew, hmanned⟩ := hu.manned
  have hmakes : strand.Makes RunCall.OfLead fun _ => True :=
    (hmanned.has _ (List.mem_of_getElem? hi) rfl).makes
  rw [hworld]
  exact World.unmoved_resume s.plan.service n n hable hmakes

end Session

end DeviceSuite
