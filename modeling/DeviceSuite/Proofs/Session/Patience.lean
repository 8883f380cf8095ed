import DeviceSuite.Proofs.Session.Isolation
import DeviceSuite.Proofs.Session.Punctual

/-!
# Time for a tour left to itself

The moves in which a session is given time are timely, as long as they end before the stop. So a run
in which a tour is left to itself can always be brought to its end without disturbing the tour: it
is given time until the stop, if there is to be one, stopped, and given time again.
-/

namespace DeviceSuite

namespace Session.Secludes

variable {σ : Type} {s : Session σ} {n place : Nat} {id : String} {stopAt limit : Option Nat}
  {Q : Option RoleResult → Prop} {moves : List Move}

/-- A turn may be taken where the flag of the run is what it should be, and leaves it so. -/
theorem turn_respects (h : s.Secludes n place id stopAt Q) {i : Nat}
    (able : s.pool.isAble s.host i = true) (hread : s.world.isStopped n = stopAt.any (· ≤ s.now)) :
    s.Respects n id stopAt [.turn i] ∧
      (s.takeTurn i).world.isStopped n = stopAt.any (· ≤ (s.takeTurn i).now) :=
  ⟨respects_single able hread trivial, (h.flagged_takeTurn able hread).isStopped⟩

/-- The clock may move to the next instant at which a strand is due, if that is before the stop. -/
theorem clock_respects (h : s.Secludes n place id stopAt Q) (hstill : s.IsStill) {due : Nat}
    (hlt : s.now < due) (hdues : ∀ e ∈ s.pool.strands, ∀ due' ∈ e.2.due?, due ≤ due')
    (hread : s.world.isStopped n = stopAt.any (· ≤ s.now))
    (hlimit : ∀ t ∈ stopAt, s.now < t → due < t) :
    s.Respects n id stopAt [.clock due] ∧ s.world.isStopped n = stopAt.any (· ≤ due) := by
  have hsame : stopAt.any (· ≤ s.now) = stopAt.any (· ≤ due) := by
    cases stopAt with
    | none => rfl
    | some t =>
      have hiff : t ≤ s.now ↔ t ≤ due :=
        ⟨fun hle => by omega, fun hle => Nat.not_lt.1 fun hgt => by
          have := hlimit t rfl hgt
          omega⟩
      simp [hiff]
  have htimely : s.Timely n stopAt (.clock due) := by
    refine ⟨hstill, Nat.le_of_lt hlt, hdues, fun hopen t ht => ?_⟩
    obtain rfl : stopAt = some t := ht
    have hgt : s.now < t := by simpa [hopen] using hread
    exact Nat.le_of_lt (hlimit t rfl hgt)
  exact ⟨respects_single rfl htimely trivial, hread.trans hsame⟩

/-- Moves in which time passes are timely, if they are to stop before the run is. -/
theorem lapse_respects (hlapse : s.Lapse limit moves) (h : s.Secludes n place id stopAt Q)
    (hread : s.world.isStopped n = stopAt.any (· ≤ s.now))
    (hlimit : ∀ t ∈ stopAt, s.now < t → ∃ time ∈ limit, time ≤ t) :
    s.Respects n id stopAt moves ∧
      (s.performs moves).world.isStopped n = stopAt.any (· ≤ (s.performs moves).now) ∧
      ∀ time ∈ limit, s.now < time → (s.performs moves).now < time := by
  induction hlapse with
  | nil => exact ⟨respects_nil, hread, fun _ _ hlt => hlt⟩
  | turn able _ ih =>
    obtain ⟨hturn, hread'⟩ := h.turn_respects able hread
    have hnow := now_takeTurn able
    obtain ⟨hmoves, hread'', hbefore⟩ := ih (h.performs hturn) hread' fun t ht hlt =>
      hlimit t ht (hnow ▸ hlt)
    exact ⟨respects_append.2 ⟨hturn, hmoves⟩, hread'', fun time htime hlt =>
      hbefore time htime (hnow.trans_lt hlt)⟩
  | clock hstill hlt hdues hgoes _ ih =>
    obtain ⟨hclock, hread'⟩ := h.clock_respects hstill hlt hdues hread fun t ht hgt => by
      obtain ⟨time, htime, hle⟩ := hlimit t ht hgt
      exact Nat.lt_of_lt_of_le (hgoes time htime) hle
    obtain ⟨hmoves, hread'', hbefore⟩ := ih (h.performs hclock) hread' fun t ht hlt' =>
      hlimit t ht (Nat.lt_trans hlt hlt')
    exact ⟨respects_append.2 ⟨hclock, hmoves⟩, hread'', fun time htime _ =>
      hbefore time htime (hgoes time htime)⟩

/-- The run can be brought to the instant of the stop, at which it is still. -/
theorem exists_until {t : Nat} (h : s.Secludes n place id (some t) Q) (hlt : s.now < t)
    (hread : s.world.isStopped n = (some t).any (· ≤ s.now)) :
    ∃ moves, s.Respects n id (some t) moves ∧ (s.performs moves).now = t := by
  obtain ⟨moves, hlapse, hperforms⟩ := h.opened.exists_lapse (some t) fun _ => false
  obtain ⟨hmoves, -, hbefore⟩ := lapse_respects hlapse h hread
    fun t' ht' _ => ⟨t, rfl, Nat.le_of_eq (Option.some.inj ht')⟩
  have hstep : (s.performs moves).pool.step? (s.performs moves).host (some t) (fun _ => false) =
      none := by
    rw [hperforms]
    exact Pool.step?_run (some t) (fun _ => false) s.pool
  have hle : (s.performs moves).now ≤ t := Nat.le_of_lt (hbefore t rfl hlt)
  obtain ⟨hstill, hdues⟩ := (h.performs hmoves).opened.still_of_step? hstep
  have hclock : (s.performs moves).Respects n id (some t) [.clock t] :=
    respects_single rfl ⟨hstill, hle, hdues, fun _ _ ht' => Nat.le_of_eq (Option.some.inj ht')⟩
      trivial
  refine ⟨moves ++ [.clock t], respects_append.2 ⟨hmoves, hclock⟩, ?_⟩
  rw [performs_append]
  rfl

/-- When its time has come, the run can be stopped. -/
theorem stop_respects (h : s.Secludes n place id (some s.now) Q) :
    s.Respects n id (some s.now) [.stopRun n] ∧
      (s.performs [.stopRun n]).world.isStopped n = true := by
  refine ⟨respects_single rfl (fun _ => by simp) trivial, ?_⟩
  obtain ⟨state, hstate, -⟩ := h.awaits.found
  have hraised : (s.stopRun n).world.registry.run? n = some state.requestStop := by
    change (s.world.registry.update n RunState.requestStop).run? n = _
    rw [Registry.update_run?, if_pos rfl, hstate]
    rfl
  change (s.stopRun n).world.isStopped n = true
  rw [World.isStopped, hraised]
  rfl

/-- The run can be brought to where it has been stopped, if it is to be stopped at all. -/
theorem exists_stopped (h : s.Secludes n place id stopAt Q) :
    ∃ moves, s.Respects n id stopAt moves ∧
      (s.performs moves).world.isStopped n = stopAt.any (· ≤ (s.performs moves).now) ∧
      ∀ t ∈ stopAt, t ≤ (s.performs moves).now := by
  have hstop : ∀ {s : Session σ} {t}, s.Secludes n place id (some t) Q → s.now = t →
      s.Respects n id (some t) [.stopRun n] ∧
        (s.performs [.stopRun n]).world.isStopped n =
          (some t).any (· ≤ (s.performs [.stopRun n]).now) ∧
        ∀ t' ∈ some t, t' ≤ (s.performs [.stopRun n]).now := by
    rintro s _ h rfl
    obtain ⟨hrespects, hraised⟩ := h.stop_respects
    have hnow : (s.performs [.stopRun n]).now = s.now := rfl
    exact ⟨hrespects, by simp [hraised, hnow], fun t ht => Nat.le_of_eq (Option.some.inj ht).symm⟩
  rcases h.awaits with hflagged | ⟨rfl, -⟩
  · by_cases hpast : ∀ t ∈ stopAt, t ≤ s.now
    · exact ⟨[], respects_nil, hflagged.isStopped, hpast⟩
    · obtain ⟨t, rfl, hlt⟩ : ∃ t, stopAt = some t ∧ s.now < t := by simpa using hpast
      obtain ⟨moves, hmoves, hnow⟩ := h.exists_until hlt hflagged.isStopped
      obtain ⟨hrespects, hstopped⟩ := hstop (h.performs hmoves) hnow
      refine ⟨moves ++ [.stopRun n], respects_append.2 ⟨hmoves, hrespects⟩, ?_⟩
      rw [performs_append]
      exact hstopped
  · obtain ⟨hrespects, hstopped⟩ := hstop h rfl
    exact ⟨[.stopRun n], hrespects, hstopped⟩

/-- Once the run has been stopped, if it is to be, it is waited for in timely moves. -/
theorem wait_respects (h : s.Secludes n place id stopAt Q)
    (hread : s.world.isStopped n = stopAt.any (· ≤ s.now)) (hpast : ∀ t ∈ stopAt, t ≤ s.now) :
    ∃ moves, s.Respects n id stopAt moves ∧ s.performs moves = s.wait n := by
  obtain ⟨moves, hlapse, hperforms⟩ :=
    h.opened.exists_lapse none fun w => ((w.crew? n).bind Crew.result).isSome
  have hmoves := lapse_respects hlapse h hread fun t ht hlt =>
    absurd (hpast t ht) (Nat.not_le.2 hlt)
  have hrelease : (s.performs moves).Respects n id stopAt [.release n] :=
    respects_single rfl trivial trivial
  refine ⟨moves ++ [.release n], respects_append.2 ⟨hmoves.1, hrelease⟩, ?_⟩
  rw [performs_append, hperforms]
  rfl

end Session.Secludes

end DeviceSuite
