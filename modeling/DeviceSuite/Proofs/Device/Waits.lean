import DeviceSuite.Device.Await
import DeviceSuite.Proofs.Task.Polling

/-!
# What a wait makes of its looks

A wait looks for its target again and again. A look that shows what is wanted is the last one, and
so is one that says that the session is gone; any other look only uses up its interval, whether it
shows otherwise or fails with an error that may pass. So an error is never taken for what is wanted,
not even for the absence of the target.
-/

namespace DeviceSuite

variable {σ : Type}

namespace Exchange

/-- What a look at the screen comes to, if it is answered. -/
def look? : Exchange DeviceCall.Reply → Option (Except DeviceError Finding)
  | ⟨.locate _, _, _, reply⟩ => reply
  | _ => none

variable (present : Bool) (e : DeviceError) (x : Exchange DeviceCall.Reply)

/-- A look shows the target to be there, or not to be there, as wanted. -/
def Shows : Prop := ∃ finding, x.look? = some (.ok finding) ∧ finding.isPresent = present

/-- A look fails with an error that says that the session is gone. -/
def Breaks : Prop := x.look? = some (.error e) ∧ e.isFatal = true

/-- A look is answered and settles nothing. -/
structure Idle : Prop where
  answered : x.look?.isSome = true
  notShown : ¬ x.Shows present
  notBroken : ∀ e, ¬ x.Breaks e

/-- What a wait makes of a look. -/
inductive Tells : Option (Except DeviceError (Option Finding)) → Prop where
  | lost : x.look? = none → Tells none
  | shown {finding : Finding} : x.Shows present → Tells (some (.ok (some finding)))
  | broken {e : DeviceError} : x.Breaks e → Tells (some (.error e))
  | idle : x.Idle present → Tells (some (.ok none))

variable {present e x}

/-- A look that shows what is wanted does not break the session. -/
theorem Shows.not_breaks (h : x.Shows present) : ¬ x.Breaks e := by
  obtain ⟨finding, hfinding, -⟩ := h
  rintro ⟨he, -⟩
  cases hfinding.symm.trans he

/-- A look that shows what is wanted is answered. -/
theorem Shows.look?_ne_none (h : x.Shows present) : x.look? ≠ none := by
  obtain ⟨finding, hfinding, -⟩ := h
  simp [hfinding]

/-- A look that breaks the session is answered. -/
theorem Breaks.look?_ne_none (h : x.Breaks e) : x.look? ≠ none := by
  simp [h.1]

/-- What a look finds is what is wanted, or it is idle. -/
theorem tells_of_ok {finding : Finding} (hlook : x.look? = some (.ok finding)) :
    x.Tells present (some (.ok (if finding.isPresent = present then some finding else none))) := by
  split
  · next hpresent => exact .shown ⟨finding, hlook, hpresent⟩
  · next hpresent =>
    refine .idle ⟨by rw [hlook]; rfl, ?_, ?_⟩
    · rintro ⟨finding', hfinding, hpresent'⟩
      cases hlook.symm.trans hfinding
      exact hpresent hpresent'
    · rintro e ⟨he, -⟩
      cases hlook.symm.trans he

/-- A look that fails shows nothing, but it breaks off the wait only if the session is gone. -/
theorem tells_of_error (hlook : x.look? = some (.error e)) :
    x.Tells present (some (if e.isFatal then .error e else .ok none)) := by
  split
  · next hfatal => exact .broken ⟨hlook, hfatal⟩
  · next hfatal =>
    refine .idle ⟨by rw [hlook]; rfl, ?_, ?_⟩
    · rintro ⟨finding, hfinding, -⟩
      cases hlook.symm.trans hfinding
    · rintro e' ⟨he, hfatal'⟩
      cases hlook.symm.trans he
      exact hfatal hfatal'

end Exchange

namespace Target

variable (t : Target) (present : Bool) (policy : PollPolicy)

/-- The end of a wait that has made so many idle looks: the last look, if there is another one, the
result, and the moment at which it ends. -/
inductive Closes (started i : Nat) (m : Moment σ) : List (Exchange DeviceCall.Reply) →
    Option (Except DeviceError (PollOutcome Finding)) → Moment σ → Prop where
  | vain : policy.timeoutMs.toNat ≤ m.now - started →
    Closes started i m [] (some (.ok ⟨false, none, m.now - started, i⟩)) m
  | stopped : m.isStopped = true → Closes started i m [] (some (.error .stopped)) m
  | uncounted : m.now - started < policy.timeoutMs.toNat → i = Task.maxPolls →
    Closes started i m [] none m
  | lost {x : Exchange DeviceCall.Reply} {m' : Moment σ} : x.look? = none →
    Closes started i m [x] none m'
  | shown {x : Exchange DeviceCall.Reply} {m' : Moment σ} {finding : Finding} :
    i < Task.maxPolls → x.Shows present →
    Closes started i m [x] (some (.ok ⟨true, some finding, m'.now - started, i + 1⟩)) m'
  | broken {x : Exchange DeviceCall.Reply} {m' : Moment σ} {e : DeviceError} : x.Breaks e →
    Closes started i m [x] (some (.error e)) m'
  | cut {x : Exchange DeviceCall.Reply} {m' : Moment σ} : x.Idle present → m'.isStopped = true →
    Closes started i m [x] (some (.error .stopped)) m'

/-- Looks that a wait makes: they are for the target, in time, and at the pace of the policy. -/
structure Looks (started : Nat) (m : Moment σ) (log : List (Exchange DeviceCall.Reply)) :
    Prop where
  target : ∀ x ∈ log, x.call = .locate t
  early : ∀ x ∈ log, x.began - started < policy.timeoutMs.toNat
  paced : Exchange.Paced policy.intervalMs.toNat m.now log

/-- A wait that has made so many looks goes on from a moment, with idle looks until it closes. -/
structure Watches (started i : Nat) (m : Moment σ) (log : List (Exchange DeviceCall.Reply))
    (r : Option (Except DeviceError (PollOutcome Finding))) (m' : Moment σ) : Prop where
  looks : t.Looks policy started m log
  closes : ∃ idle last m₀, log = idle ++ last ∧ (∀ x ∈ idle, x.Idle present) ∧
    i + idle.length ≤ Task.maxPolls ∧
    m₀.now = Exchange.nextAt policy.intervalMs.toNat m.now idle ∧
    Closes present policy started (i + idle.length) m₀ last r m'

variable {t present policy} {s : Service DeviceCall.Reply σ} {m m' : Moment σ}
  {started i : Nat} {x : Exchange DeviceCall.Reply} {log : List (Exchange DeviceCall.Reply)}
  {r : Option (Except DeviceError (PollOutcome Finding))}

/-- A look is one call, and the wait is told what it comes to. -/
theorem goes_look : (t.look present).Goes s m fun log r m' => ∃ x, log = [x] ∧
    x.call = .locate t ∧ x.began = m.now ∧ x.ended = m'.now ∧ x.Tells present r := by
  rw [look, Task.goes_bind, Task.goes_ask]
  cases hreply : (s.exchange m (DeviceCall.locate t)).1 with
  | none => exact ⟨_, rfl, rfl, rfl, rfl, .lost hreply⟩
  | some reply =>
    have hlook : (s.record m (.locate t)).look? = some reply := hreply
    cases reply with
    | ok finding => exact ⟨_, rfl, rfl, rfl, rfl, Exchange.tells_of_ok hlook⟩
    | error e => exact ⟨_, rfl, rfl, rfl, rfl, Exchange.tells_of_error hlook⟩

/-- What a look of a wait comes to is what the wait makes of its only call. -/
theorem exists_look {told : Option (Except DeviceError (Option Finding))}
    (h : (t.look present).runAlone s m = (told, m')) :
    ∃ x, (t.look present).exchanges s m = [x] ∧ x.call = .locate t ∧ x.began = m.now ∧
      x.ended = m'.now ∧ x.Tells present told := by
  have hlook : (t.look present).Goes s m _ := goes_look
  rwa [Task.Goes, h] at hlook

/-- A wait closes without another look. -/
theorem Watches.nil (hi : i ≤ Task.maxPolls) (h : Closes present policy started i m [] r m') :
    t.Watches present policy started i m [] r m' where
  looks := ⟨by simp, by simp, trivial⟩
  closes := ⟨[], [], m, rfl, by simp, hi, rfl, h⟩

/-- A wait closes with a look. -/
theorem Watches.single (hdue : PollDue policy started i m) (hcall : x.call = .locate t)
    (hbegan : x.began = m.now) (h : Closes present policy started i m [x] r m') :
    t.Watches present policy started i m [x] r m' where
  looks := ⟨by simpa using hcall, by simpa [hbegan] using hdue.early, hbegan, trivial⟩
  closes := ⟨[], [x], m, rfl, by simp, Nat.le_of_lt hdue.counted, rfl, h⟩

/-- A wait goes on after an idle look. -/
theorem Watches.cons {m₂ : Moment σ} (hdue : PollDue policy started i m)
    (hcall : x.call = .locate t) (hbegan : x.began = m.now) (hidle : x.Idle present)
    (hnext : m₂.now = m.now + max policy.intervalMs.toNat (x.ended - m.now))
    (h : t.Watches present policy started (i + 1) m₂ log r m') :
    t.Watches present policy started i m (x :: log) r m' where
  looks :=
    { target := List.forall_mem_cons.2 ⟨hcall, h.looks.target⟩
      early := List.forall_mem_cons.2 ⟨hbegan ▸ hdue.early, h.looks.early⟩
      paced := ⟨hbegan, hnext ▸ h.looks.paced⟩ }
  closes := by
    obtain ⟨idle, last, m₀, rfl, hall, hcount, hlate, hcloses⟩ := h.closes
    have hlen : i + (x :: idle).length = i + 1 + idle.length := by
      rw [List.length_cons]
      omega
    rw [hnext] at hlate
    exact ⟨x :: idle, last, m₀, rfl, List.forall_mem_cons.2 ⟨hidle, hall⟩, hlen ▸ hcount, hlate,
      hlen ▸ hcloses⟩

/-- A wait makes idle looks until it closes. -/
theorem watches_of_polls
    (h : Polls s policy .stopped (t.look present) started i m log r m')
    (hi : i ≤ Task.maxPolls) : t.Watches present policy started i m log r m' := by
  induction h with
  | late hover => exact .nil hi (.vain hover)
  | halted _ hstop => exact .nil hi (.stopped hstop)
  | uncounted hwait _ => exact .nil hi (.uncounted hwait rfl)
  | crashed hdue hprobe =>
    obtain ⟨x, hlog, hcall, hbegan, -, htells⟩ := exists_look hprobe
    cases htells with
    | lost hlook => exact hlog ▸ .single hdue hcall hbegan (.lost hlook)
  | failed hdue hprobe =>
    obtain ⟨x, hlog, hcall, hbegan, -, htells⟩ := exists_look hprobe
    cases htells with
    | broken hbreaks => exact hlog ▸ .single hdue hcall hbegan (.broken hbreaks)
  | found hdue hprobe =>
    obtain ⟨x, hlog, hcall, hbegan, -, htells⟩ := exists_look hprobe
    cases htells with
    | shown hshows => exact hlog ▸ .single hdue hcall hbegan (.shown hdue.counted hshows)
  | broken hdue hprobe hrest =>
    obtain ⟨x, hlog, hcall, hbegan, -, htells⟩ := exists_look hprobe
    obtain ⟨-, -, hstop⟩ := Moment.of_rest_false hrest
    cases htells with
    | idle hidle => exact hlog ▸ .single hdue hcall hbegan (.cut hidle hstop)
  | @again i m m₁ m₂ m' log r hdue hprobe hrest _ ih =>
    obtain ⟨x, hlog, hcall, hbegan, hended, htells⟩ := exists_look hprobe
    obtain rfl := Moment.eq_of_rest_true hrest
    have hpassed : m.now ≤ m₁.now := congrArg (·.2.now) hprobe ▸ Task.now_le_runAlone s _ m
    have hnext : m₁.now + (policy.intervalMs.toNat - (m₁.now - m.now)) =
        m.now + max policy.intervalMs.toNat (x.ended - m.now) := by
      rw [hended]
      omega
    cases htells with
    | idle hidle =>
      rw [hlog]
      exact .cons hdue hcall hbegan hidle hnext (ih hdue.counted)

/-- A wait goes on from its beginning. -/
theorem goes_watches : (Task.pollUntil policy .stopped (t.look present)).Goes s m
    (t.Watches present policy m.now 0 m) :=
  Task.goes_pollUntil.mono fun _ _ _ h => watches_of_polls h (Nat.zero_le _)

namespace Closes

variable {last : List (Exchange DeviceCall.Reply)} {o : PollOutcome Finding}

/-- A wait closes with one look at most. -/
theorem length_le (h : Closes present policy started i m last r m') : last.length ≤ 1 := by
  cases h <;> simp

/-- A wait is a success if the last look shows what is wanted. -/
theorem success_iff (h : Closes present policy started i m last r m') :
    (∃ o, r = some (.ok o) ∧ o.success = true) ↔ ∃ x ∈ last, x.Shows present := by
  cases h with
  | vain _ => simp
  | stopped _ => simp
  | uncounted _ _ => simp
  | lost hlook => simpa using fun hshows => Exchange.Shows.look?_ne_none hshows hlook
  | shown _ hshows => simpa using hshows
  | broken hbreaks => simpa using fun hshows => Exchange.Shows.not_breaks hshows hbreaks
  | cut hidle _ => simpa using hidle.notShown

/-- A wait is broken off by the last look if the session is gone. -/
theorem error_iff (h : Closes present policy started i m last r m') {e : DeviceError}
    (he : e ≠ .stopped) : r = some (.error e) ↔ ∃ x ∈ last, x.Breaks e := by
  cases h with
  | vain _ => simp
  | stopped _ => simpa using he.symm
  | uncounted _ _ => simp
  | lost hlook => simpa using fun hbreaks => Exchange.Breaks.look?_ne_none hbreaks hlook
  | shown _ hshows => simpa using hshows.not_breaks
  | @broken x m' e' hbreaks =>
    simp only [Option.some.injEq, Except.error.injEq, List.mem_singleton, exists_eq_left]
    constructor
    · rintro rfl
      exact hbreaks
    · intro hbreaks'
      exact Except.error.inj (Option.some.inj (hbreaks.1.symm.trans hbreaks'.1))
  | cut hidle _ => simpa [hidle.notBroken e] using he.symm

/-- A wait that ends with a stop ends after the flag has been raised. -/
theorem isStopped (h : Closes present policy started i m last (some (.error .stopped)) m') :
    m'.isStopped = true := by
  cases h with
  | stopped hstop => exact hstop
  | broken hbreaks => cases hbreaks.2
  | cut _ hstop => exact hstop

/-- A wait that ends with an outcome has counted its looks and its time, and a failed one makes no
last look. -/
theorem of_ok (h : Closes present policy started i m last (some (.ok o)) m')
    (hi : i ≤ Task.maxPolls) :
    o.iterations = i + last.length ∧ o.iterations ≤ Task.maxPolls ∧ o.waited = m'.now - started ∧
      (o.success = false → last = [] ∧ m' = m ∧ policy.timeoutMs.toNat ≤ m'.now - started) := by
  cases h with
  | vain hover => exact ⟨rfl, hi, rfl, fun _ => ⟨rfl, rfl, hover⟩⟩
  | shown hcounted _ => exact ⟨rfl, hcounted, rfl, nofun⟩

/-- A wait that crashes has made a look that was not answered, or has no number left for another
one. -/
theorem of_none (h : Closes present policy started i m last none m') :
    (∃ x ∈ last, x.look? = none) ∨ last = [] ∧ i = Task.maxPolls ∧ m' = m ∧
      m'.now - started < policy.timeoutMs.toNat := by
  cases h with
  | uncounted hwait hi => exact .inr ⟨rfl, hi, rfl, hwait⟩
  | lost hlook => exact .inl (by simpa using hlook)

end Closes

/-! ### What comes of a wait -/

section

variable {timeoutMs : UInt64} {o : PollOutcome Finding}

/-- What is told of a wait is a success if the wait was. -/
theorem awaited_success : (t.awaited present timeoutMs o).success = o.success := by
  rw [awaited]
  cases o.success <;> rfl

/-- What is told of a failed wait is its complaint. -/
theorem awaited_message (h : o.success = false) :
    (t.awaited present timeoutMs o).message = some (t.complaint present timeoutMs) := by
  rw [awaited, h]
  rfl

/-- What is told of a wait has the number of its looks, and its time. -/
theorem awaited_performance : ∃ p, (t.awaited present timeoutMs o).performance = some p ∧
    p.attempts = some (.ofNat o.iterations) ∧ p.waitedMs = some (millis o.waited) := by
  rw [awaited]
  cases o.success <;> exact ⟨_, rfl, rfl, rfl⟩

end

/-- A wait from one moment to another is told by the looks that it makes. -/
structure Waits (t : Target) (present : Bool) (policy : PollPolicy) (m : Moment σ)
    (log : List (Exchange DeviceCall.Reply)) (r : Option (Except DeviceError Outcome))
    (m' : Moment σ) : Prop where
  /-- Whatever a look comes to, the next one is made in time and at the pace of the policy. -/
  looks : t.Looks policy m.now m log
  /-- After a look that settles something no other is made. -/
  idle : ∀ x ∈ log.dropLast, x.Idle present
  success : (∃ o, r = some (.ok o) ∧ o.success = true) ↔ ∃ x ∈ log, x.Shows present
  broken : ∀ e, e ≠ .stopped → (r = some (.error e) ↔ ∃ x ∈ log, x.Breaks e)
  stopped : r = some (.error .stopped) → m'.isStopped = true
  /-- When no look settles anything, the wait is stopped or fails, unless it crashes. -/
  vain : (∀ x ∈ log, x.Idle present) →
    r = some (.error .stopped) ∨ (∃ o, r = some (.ok o) ∧ o.success = false) ∨ r = none
  /-- A failed outcome comes when another look would be due, but the time is over. -/
  failed : ∀ o, r = some (.ok o) → o.success = false →
    o.message = some (t.complaint present policy.timeoutMs) ∧
    m'.now = Exchange.nextAt policy.intervalMs.toNat m.now log ∧
    policy.timeoutMs.toNat ≤ m'.now - m.now
  counts : ∀ o, r = some (.ok o) → ∃ p, o.performance = some p ∧
    p.attempts.map UInt32.toNat = some log.length ∧ p.waitedMs = some (millis (m'.now - m.now))
  /-- A wait crashes with a look that is not answered, or when another look is due and cannot be
  counted. -/
  crashed : r = none → (∃ x ∈ log, x.look? = none) ∨ log.length = Task.maxPolls ∧
    m'.now = Exchange.nextAt policy.intervalMs.toNat m.now log ∧
    m'.now - m.now < policy.timeoutMs.toNat

/-- Idle looks settle nothing. -/
theorem exists_mem_append_iff {P : Exchange DeviceCall.Reply → Prop}
    {idle last : List (Exchange DeviceCall.Reply)} (h : ∀ x ∈ idle, ¬ P x) :
    (∃ x ∈ idle ++ last, P x) ↔ ∃ x ∈ last, P x := by
  simp only [List.mem_append, or_and_right, exists_or]
  exact or_iff_right fun ⟨x, hx, hp⟩ => h x hx hp

/-- A wait of idle looks does not succeed, and is not broken off by an error of theirs. -/
theorem vain_of_idle {r : Option (Except DeviceError Outcome)}
    (hsuccess : (∃ o, r = some (.ok o) ∧ o.success = true) ↔ ∃ x ∈ log, x.Shows present)
    (hbroken : ∀ e, e ≠ .stopped → (r = some (.error e) ↔ ∃ x ∈ log, x.Breaks e))
    (hidle : ∀ x ∈ log, x.Idle present) :
    r = some (.error .stopped) ∨ (∃ o, r = some (.ok o) ∧ o.success = false) ∨ r = none := by
  rcases r with _ | e | o
  · exact .inr (.inr rfl)
  · by_cases he : e = .stopped
    · exact .inl (he ▸ rfl)
    · obtain ⟨x, hx, hbreaks⟩ := (hbroken e he).1 rfl
      exact absurd hbreaks ((hidle x hx).notBroken e)
  · cases hflag : o.success with
    | true =>
      obtain ⟨x, hx, hshows⟩ := hsuccess.1 ⟨o, rfl, hflag⟩
      exact absurd hshows (hidle x hx).notShown
    | false => exact .inr (.inl ⟨o, rfl, hflag⟩)

/-- A wait is told to end with an outcome exactly if it does. -/
theorem map_awaited_eq_ok {timeoutMs : UInt64} {o' : Outcome} :
    r.map (Except.map (t.awaited present timeoutMs)) = some (.ok o') ↔
      ∃ o, r = some (.ok o) ∧ t.awaited present timeoutMs o = o' := by
  rcases r with _ | e | o <;> simp [Except.map]

/-- A wait is told to end with an error exactly if it does. -/
theorem map_awaited_eq_error {timeoutMs : UInt64} {e : DeviceError} :
    r.map (Except.map (t.awaited present timeoutMs)) = some (.error e) ↔
      r = some (.error e) := by
  rcases r with _ | e' | o <;> simp [Except.map]

/-- The outcome of a wait is a success if its polling is. -/
theorem awaited_success_iff {timeoutMs : UInt64} :
    (∃ o', r.map (Except.map (t.awaited present timeoutMs)) = some (.ok o') ∧
      o'.success = true) ↔ ∃ o, r = some (.ok o) ∧ o.success = true := by
  constructor
  · rintro ⟨o', h, hsuccess⟩
    obtain ⟨o, rfl, rfl⟩ := map_awaited_eq_ok.1 h
    exact ⟨o, rfl, awaited_success ▸ hsuccess⟩
  · rintro ⟨o, rfl, hsuccess⟩
    exact ⟨_, rfl, awaited_success.trans hsuccess⟩

/-- All looks of a wait but the last are among those before its close. -/
theorem Closes.dropLast_subset {idle last : List (Exchange DeviceCall.Reply)} {n : Nat}
    (h : Closes present policy started n m last r m') : (idle ++ last).dropLast ⊆ idle := by
  rcases last with _ | ⟨y, _ | ⟨z, rest⟩⟩
  · rw [List.append_nil]
    exact List.dropLast_subset idle
  · rw [List.dropLast_concat]
    exact fun _ => id
  · exact absurd h.length_le (by simp)

/-- Looks at the pace of a wait, told with their number and time, are a wait. -/
theorem waits_of_watches (h : t.Watches present policy m.now 0 m log r m') :
    t.Waits present policy m log (r.map (Except.map (t.awaited present policy.timeoutMs))) m' := by
  obtain ⟨hlooks, idle, last, m₀, rfl, hidle, hcount, hlate, hcloses⟩ := h
  rw [Nat.zero_add] at hcount hcloses
  have hsuccess : (∃ o', r.map (Except.map (t.awaited present policy.timeoutMs)) = some (.ok o') ∧
      o'.success = true) ↔ ∃ x ∈ idle ++ last, x.Shows present := by
    rw [exists_mem_append_iff fun x hx => (hidle x hx).notShown, ← hcloses.success_iff]
    exact awaited_success_iff
  have hbroken : ∀ e, e ≠ .stopped →
      (r.map (Except.map (t.awaited present policy.timeoutMs)) = some (.error e) ↔
        ∃ x ∈ idle ++ last, x.Breaks e) := by
    intro e he
    rw [map_awaited_eq_error, exists_mem_append_iff fun x hx => (hidle x hx).notBroken e,
      hcloses.error_iff he]
  exact {
    looks := hlooks
    success := hsuccess
    broken := hbroken
    idle := fun x hx => hidle x (hcloses.dropLast_subset hx)
    vain := vain_of_idle hsuccess hbroken
    stopped := fun h => by
      rw [map_awaited_eq_error.1 h] at hcloses
      exact hcloses.isStopped
    failed := fun o' h hfailed => by
      obtain ⟨o, rfl, rfl⟩ := map_awaited_eq_ok.1 h
      rw [awaited_success] at hfailed
      obtain ⟨rfl, rfl, hover⟩ := (hcloses.of_ok hcount).2.2.2 hfailed
      rw [List.append_nil]
      exact ⟨awaited_message hfailed, hlate, hover⟩
    counts := fun o' h => by
      obtain ⟨o, rfl, rfl⟩ := map_awaited_eq_ok.1 h
      obtain ⟨hiterations, hmax, hwaited, -⟩ := hcloses.of_ok hcount
      obtain ⟨p, hp, hattempts, hms⟩ := awaited_performance
      have hsize : o.iterations < UInt32.size := Nat.lt_of_le_of_lt hmax (by decide)
      refine ⟨p, hp, ?_, hwaited ▸ hms⟩
      rw [hattempts, Option.map_some, UInt32.toNat_ofNat_of_lt' hsize, hiterations,
        List.length_append]
    crashed := fun h => by
      rw [Option.map_eq_none_iff] at h
      subst h
      rcases hcloses.of_none with ⟨x, hx, hlook⟩ | ⟨rfl, hmax, rfl, hwait⟩
      · exact .inl ⟨x, List.mem_append_right _ hx, hlook⟩
      · rw [List.append_nil]
        exact .inr ⟨hmax, hlate, hwait⟩ }

/-- A wait comes to what its looks come to: it succeeds with a look that shows what is wanted, it is
broken off by a look after which the session is gone, and otherwise it goes on until its time is
over or the stop comes. -/
theorem waits_exactly (s : Service DeviceCall.Reply σ) (t : Target) (present : Bool)
    (policy : PollPolicy) (m : Moment σ) :
    (t.await present policy).Goes s m (t.Waits present policy m) := by
  rw [await, Task.goes_bind]
  refine goes_watches.mono fun log r m' h => ?_
  have hwaits := waits_of_watches h
  cases r with
  | none => exact hwaits
  | some r =>
    dsimp only [Option.elim]
    rw [Task.goes_pure, List.append_nil]
    exact hwaits

end Target

end DeviceSuite
