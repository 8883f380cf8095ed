import DeviceSuite.Proofs.Task.Keeping
import DeviceSuite.Task.Service

/-!
# What a task comes to on its own

For a task on its own, time passes only while it pauses or stands in a call. A host that replies to
its calls as they are replied to there cannot bring it to anything else: whatever a strand may come
to from where it stands, its task may come to from the beginning. So a strand among others, which do
as they like, comes only to what it may come to on its own.
-/

namespace DeviceSuite

variable {C : Type} {R : C → Type} {α β L σ τ : Type}

/-- How the calls of a task on its own go. -/
structure Surroundings {C : Type} (R : C → Type) (τ : Type) where
  /-- A call that begins at one moment is replied to at another. -/
  replies : (c : C) → Moment τ → Option (R c) → Moment τ → Prop
  /-- A call that is due at one moment is answered there. -/
  answers : (c : C) → Moment τ → Option (R c) → Moment τ → Prop

namespace Task

/-- A task on its own comes from one moment to another, where it has a result or has crashed. -/
def Comes (S : Surroundings R τ) : Task R α → Moment τ → Option α → Moment τ → Prop
  | done a, m, r, m' => r = some a ∧ m' = m
  | crash, m, r, m' => r = none ∧ m' = m
  | clock next, m, r, m' => (next m.now).Comes S m r m'
  | stopRequested next, m, r, m' => (next m.isStopped).Comes S m r m'
  | pause ms next, m, r, m' => (next (m.pause ms).1).Comes S (m.pause ms).2 r m'
  | giveWay next, m, r, m' => next.Comes S m r m'
  | call c next, m, r, m' => ∃ reply m₁, S.replies c m reply m₁ ∧ (next reply).Comes S m₁ r m'

variable {S : Surroundings R τ} {t : Task R α} {m m' : Moment τ}

/-- A task comes through a part to where the rest of it comes from there. -/
theorem comes_taskBind {f : α → Task R β} {r : Option β} :
    (t.bind f).Comes S m r m' ↔ ∃ r₁ m₁, t.Comes S m r₁ m₁ ∧
      r₁.elim (r = none ∧ m' = m₁) fun a => (f a).Comes S m₁ r m' := by
  induction t generalizing m with
  | done a =>
    constructor
    · exact fun h => ⟨_, _, ⟨rfl, rfl⟩, h⟩
    · rintro ⟨_, _, ⟨rfl, rfl⟩, h⟩
      exact h
  | crash =>
    constructor
    · exact fun h => ⟨_, _, ⟨rfl, rfl⟩, h⟩
    · rintro ⟨_, _, ⟨rfl, rfl⟩, h⟩
      exact h
  | clock next ih => exact ih _
  | stopRequested next ih => exact ih _
  | pause ms next ih => exact ih _
  | giveWay next ih => exact ih
  | call c next ih =>
    constructor
    · rintro ⟨reply, m₁, hreply, h⟩
      obtain ⟨r₁, m₂, hnext, hf⟩ := (ih reply).1 h
      exact ⟨r₁, m₂, ⟨reply, m₁, hreply, hnext⟩, hf⟩
    · rintro ⟨r₁, m₂, ⟨reply, m₁, hreply, hnext⟩, hf⟩
      exact ⟨reply, m₁, hreply, (ih reply).2 ⟨r₁, m₂, hnext, hf⟩⟩

/-- A task that goes on from what another comes to. -/
theorem comes_bind {f : α → Task R β} {r : Option β} :
    (t >>= f).Comes S m r m' ↔ ∃ r₁ m₁, t.Comes S m r₁ m₁ ∧
      r₁.elim (r = none ∧ m' = m₁) fun a => (f a).Comes S m₁ r m' :=
  comes_taskBind

/-- What is done at the end comes after all else, whether the task ends well or crashes. -/
theorem comes_ensuring {last : Task R Unit} {r : Option α} :
    (t.ensuring last).Comes S m r m' ↔ ∃ r₁ m₁ ended, t.Comes S m r₁ m₁ ∧
      last.Comes S m₁ ended m' ∧ r = ended.bind fun _ => r₁ := by
  induction t generalizing m with
  | done a =>
    rw [ensuring, comes_taskBind]
    constructor
    · rintro ⟨ended, m₁, hlast, hr⟩
      cases ended with
      | none => exact ⟨_, _, none, ⟨rfl, rfl⟩, hr.2 ▸ hlast, hr.1⟩
      | some _ => exact ⟨_, _, some (), ⟨rfl, rfl⟩, hr.2 ▸ hlast, hr.1⟩
    · rintro ⟨_, _, ended, ⟨rfl, rfl⟩, hlast, rfl⟩
      refine ⟨ended, m', hlast, ?_⟩
      cases ended <;> exact ⟨rfl, rfl⟩
  | crash =>
    rw [ensuring, comes_taskBind]
    constructor
    · rintro ⟨ended, m₁, hlast, hr⟩
      cases ended with
      | none => exact ⟨_, _, none, ⟨rfl, rfl⟩, hr.2 ▸ hlast, hr.1⟩
      | some _ => exact ⟨_, _, some (), ⟨rfl, rfl⟩, hr.2 ▸ hlast, hr.1⟩
    · rintro ⟨_, _, ended, ⟨rfl, rfl⟩, hlast, rfl⟩
      refine ⟨ended, m', hlast, ?_⟩
      cases ended <;> exact ⟨rfl, rfl⟩
  | clock next ih => exact ih _
  | stopRequested next ih => exact ih _
  | pause ms next ih => exact ih _
  | giveWay next ih => exact ih
  | call c next ih =>
    constructor
    · rintro ⟨reply, m₁, hreply, h⟩
      obtain ⟨r₁, m₂, ended, hnext, hlast, hr⟩ := (ih reply).1 h
      exact ⟨r₁, m₂, ended, ⟨reply, m₁, hreply, hnext⟩, hlast, hr⟩
    · rintro ⟨r₁, m₂, ended, ⟨reply, m₁, hreply, hnext⟩, hlast, hr⟩
      exact ⟨reply, m₁, hreply, (ih reply).2 ⟨r₁, m₂, ended, hnext, hlast, hr⟩⟩

/-- A call comes to its reply. -/
theorem comes_ask {c : C} {r : Option (R c)} :
    (ask c : Task R (R c)).Comes S m r m' ↔ S.replies c m r m' := by
  constructor
  · rintro ⟨reply, m₁, hreply, h⟩
    cases reply with
    | none =>
      obtain ⟨rfl, rfl⟩ := h
      exact hreply
    | some a =>
      obtain ⟨rfl, rfl⟩ := h
      exact hreply
  · intro hreply
    refine ⟨r, m', hreply, ?_⟩
    cases r <;> exact ⟨rfl, rfl⟩

end Task

namespace Moment

variable {m : Moment τ} {due time : Nat}

/-- A pause that begins after the stop is over at once. -/
theorem pause_of_isStopped (hflag : m.isStopped = true) (ms : Nat) : m.pause ms = (false, m) := by
  rw [pause, if_pos hflag]

/-- A pause of no length takes no time. -/
theorem pause_zero (hflag : m.isStopped = false) : m.pause 0 = (true, m) := by
  obtain ⟨now, stopAt, state⟩ := m
  cases stopAt with
  | none => rfl
  | some t =>
    have hlt : ¬ t ≤ now := by simpa [isStopped] using hflag
    simp [pause, isStopped, hlt]

/-- A pause that is over at an instant is over at it whenever one looks, until then or until the
stop. -/
theorem pause_later (hflag : m.isStopped = false) (hnow : m.now ≤ time) (hdue : time ≤ due)
    (hstop : ∀ t ∈ m.stopAt, time ≤ t) :
    { m with now := time }.pause (due - time) = m.pause (due - m.now) := by
  obtain ⟨now, stopAt, state⟩ := m
  dsimp only at hnow hstop ⊢
  have hsum : time + (due - time) = due := by omega
  have hsum' : now + (due - now) = due := by omega
  cases stopAt with
  | none => simp [pause, isStopped, hsum, hsum']
  | some t =>
    have hlt : now < t := by simpa [isStopped] using hflag
    have hle : time ≤ t := hstop t rfl
    simp only [pause, isStopped, Option.any_some, hsum, hsum', decide_eq_true_eq,
      Nat.not_le.2 hlt, ↓reduceIte]
    by_cases htime : t ≤ time
    · obtain rfl : t = time := Nat.le_antisymm htime hle
      simp [hdue]
    · simp [htime]

end Moment

namespace Strand

variable {S : Surroundings R τ} {strand : Strand R α} {m : Moment τ} {H W Y : C → Prop}
  {time : Nat} {r : Option α}

/-- A strand on its own comes to a result from where it stands at a moment. -/
def ComesTo (S : Surroundings R τ) : Strand R α → Moment τ → Option α → Prop
  | ready task, m, r => ∃ m', task.Comes S m r m'
  | resting due next, m, r => ∃ m', (Task.pause (due - m.now) next).Comes S m r m'
  | waiting c next, m, r => ∃ m', (Task.call c next).Comes S m r m'
  | calling due c next, m, r =>
    ∃ reply m₁ m', S.answers c { m with now := due } reply m₁ ∧ (next reply).Comes S m₁ r m'
  | ended result, _, r => r = result

/-- A strand is not late, and makes only certain calls; those of `W` may have to wait, and those of
`Y` take time. -/
def InTime (H W Y : C → Prop) (now : Nat) : Strand R α → Prop
  | ready task => task.Only H fun _ => True
  | resting due next => now ≤ due ∧ ∀ b, (next b).Only H fun _ => True
  | waiting c next => W c ∧ ∀ r, (next r).Only H fun _ => True
  | calling due c next => now ≤ due ∧ Y c ∧ ∀ r, (next r).Only H fun _ => True
  | ended _ => True

/-- A strand that pauses or stands in a call comes to the same when some time has passed. -/
theorem comesTo_of_later (hnow : m.now ≤ time) (hdue : ∀ due ∈ strand.due?, time ≤ due)
    (hcall : ∀ task, strand ≠ .ready task) (hwait : ∀ c next, strand ≠ .waiting c next)
    (hflag : ∀ due next, strand = .resting due next → m.isStopped = false)
    (hstop : m.isStopped = false → ∀ t ∈ m.stopAt, time ≤ t)
    (h : strand.ComesTo S { m with now := time } r) : strand.ComesTo S m r := by
  cases strand with
  | ready task => exact absurd rfl (hcall task)
  | resting due next =>
    have hopen := hflag due next rfl
    have hpause := Moment.pause_later hopen hnow (hdue due rfl) (hstop hopen)
    simpa only [ComesTo, Task.Comes, hpause] using h
  | waiting c next => exact absurd rfl (hwait c next)
  | calling due c next => exact h
  | ended result => exact h

/-- A strand is not late as long as no later instant has come than the one at which it is due. -/
theorem InTime.later {now : Nat} (h : strand.InTime H W Y now)
    (hdue : ∀ due ∈ strand.due?, time ≤ due) : strand.InTime H W Y time := by
  cases strand with
  | resting due next => exact ⟨hdue due rfl, h.2⟩
  | calling due c next => exact ⟨hdue due rfl, h.2⟩
  | _ => exact h

end Strand

namespace Host

variable (h : Host R α L σ) (l : L) (S : Surroundings R τ) (H W Y : C → Prop) (P : σ → Prop)
  (see : σ → Moment τ)

/-- What comes of a call that is taken is what would come of it on its own. -/
def Tells (m : Moment τ) (c : C) : σ × (Nat ⊕ Option (R c)) → Prop
  | (s, .inl due) => P s ∧ Y c ∧ h.now s ≤ due ∧
      ∀ reply m', S.answers c { see s with now := due } reply m' → S.replies c m reply m'
  | (s, .inr reply) => P s ∧ S.replies c m reply (see s)

/-- As far as a task sees, its calls go among others as they go on its own. -/
structure Plays : Prop where
  now : ∀ {s}, P s → (see s).now = h.now s
  flag : ∀ {s}, P s → (see s).isStopped = h.isStopped s l
  admitted : ∀ {s c}, H c → P s → h.admits (h.announce s l c) l c = true
  begun : ∀ {s c}, H c → P s → h.Tells S Y P see (see s) c (h.take (h.announce s l c) l c)
  resumed : ∀ {s c}, W c → P s → h.Tells S Y P see (see s) c (h.take s l c)
  answered : ∀ {s c}, Y c → P s →
    P (h.answer s l c).1 ∧ S.answers c (see s) (h.answer s l c).2 (see (h.answer s l c).1)
  finished : ∀ {s} r, P s → P (h.finish s l r)

/-- Where a strand has come to, its calls still go as they should, and it comes only to what is
expected. -/
def Arrives (x : σ × Strand R α) (Q : Option α → Prop) : Prop :=
  P x.1 ∧ x.2.InTime H W Y (h.now x.1) ∧ ∀ r, x.2.ComesTo S (see x.1) r → Q r

namespace Plays

variable {h l S H W Y P see} {s : σ} {Q : Option α → Prop}

/-- A call that is taken leads only to what it would lead to on its own. -/
theorem arrives_take {c : C} {next : Option (R c) → Task R α} {m : Moment τ}
    (htake : h.Tells S Y P see m c (h.take s l c))
    (hnext : ∀ r, (next r).Only H fun _ => True)
    (ih : ∀ reply s, P s → h.Arrives S H W Y P see (h.carry l (next reply) s) fun r =>
      ∃ m', (next reply).Comes S (see s) r m') :
    h.Arrives S H W Y P see (match h.take s l c with
      | (s, .inl due) => (s, .calling due c next)
      | (s, .inr reply) => h.carry l (next reply) s)
      fun r => ∃ m', (Task.call c next).Comes S m r m' := by
  rcases hx : h.take s l c with ⟨s', due | reply⟩
  · rw [hx] at htake
    obtain ⟨hs, hc, hdue, htold⟩ := htake
    refine ⟨hs, ⟨hdue, hc, hnext⟩, fun r hr => ?_⟩
    obtain ⟨reply, m₁, m', hanswer, hcomes⟩ := hr
    exact ⟨m', reply, m₁, htold reply m₁ hanswer, hcomes⟩
  · rw [hx] at htake
    obtain ⟨hs, htold⟩ := htake
    obtain ⟨hs', hstrand, hcomes⟩ := ih reply s' hs
    refine ⟨hs', hstrand, fun r hr => ?_⟩
    obtain ⟨m', hm'⟩ := hcomes r hr
    exact ⟨m', reply, see s', htold, hm'⟩

/-- A task that is carried on comes only to what it may come to on its own. -/
theorem carry (hp : h.Plays l S H W Y P see) {task : Task R α} (ht : task.Only H fun _ => True)
    (hs : P s) :
    h.Arrives S H W Y P see (h.carry l task s) fun r => ∃ m', task.Comes S (see s) r m' := by
  induction task generalizing s with
  | done a => exact ⟨hp.finished _ hs, trivial, fun r hr => ⟨_, hr, rfl⟩⟩
  | crash => exact ⟨hp.finished _ hs, trivial, fun r hr => ⟨_, hr, rfl⟩⟩
  | clock next ih =>
    have hnow := hp.now hs
    simpa only [Host.carry, Task.Comes, hnow] using ih _ (ht _) hs
  | stopRequested next ih =>
    have hflag := hp.flag hs
    simpa only [Host.carry, Task.Comes, hflag] using ih _ (ht _) hs
  | pause ms next ih =>
    have hflag := hp.flag hs
    rw [Host.carry]
    cases hstop : h.isStopped s l with
    | true =>
      have hpause := Moment.pause_of_isStopped (hflag.trans hstop) ms
      simpa only [↓reduceIte, Task.Comes, hpause] using ih false (ht _) hs
    | false =>
      by_cases hms : ms = 0
      · subst hms
        have hpause := Moment.pause_zero (hflag.trans hstop)
        simpa only [Bool.false_eq_true, ↓reduceIte, Task.Comes, hpause] using ih true (ht _) hs
      · simp only [hms, Bool.false_eq_true, ↓reduceIte]
        refine ⟨hs, ⟨Nat.le_add_right _ _, ht⟩, fun r hr => ?_⟩
        obtain ⟨m', hm'⟩ := hr
        rw [hp.now hs, Nat.add_sub_cancel_left] at hm'
        exact ⟨m', hm'⟩
  | giveWay next ih => exact ⟨hs, ht, fun r hr => hr⟩
  | call c next ih =>
    rw [Host.carry]
    simp only [hp.admitted ht.1 hs, ↓reduceIte]
    exact arrives_take (hp.begun ht.1 hs) ht.2 fun reply s hs => ih reply (ht.2 reply) hs

/-- A strand that goes on comes only to what it may come to from where it stood. -/
theorem resume (hp : h.Plays l S H W Y P see) {strand : Strand R α}
    (able : h.isAble s l strand = true) (hstrand : strand.InTime H W Y (h.now s)) (hs : P s) :
    h.Arrives S H W Y P see (h.resume l strand s) fun r => strand.ComesTo S (see s) r := by
  cases strand with
  | ready task => exact hp.carry hstrand hs
  | resting due next =>
    obtain ⟨hdue, hnext⟩ := hstrand
    have hflag := hp.flag hs
    have hpause : (see s).pause (due - (see s).now) = (!(h.isStopped s l), see s) := by
      rw [hp.now hs]
      cases hstop : h.isStopped s l with
      | true => exact Moment.pause_of_isStopped (hflag.trans hstop) _
      | false =>
        have hdue' : due ≤ h.now s := by simpa [Host.isAble, hstop] using able
        rw [Nat.sub_eq_zero_of_le hdue']
        exact Moment.pause_zero (hflag.trans hstop)
    have hgo := hp.carry (hnext !(h.isStopped s l)) hs
    simpa only [Host.resume, Strand.ComesTo, Task.Comes, hpause] using hgo
  | waiting c next =>
    exact arrives_take (hp.resumed hstrand.1 hs) hstrand.2
      fun reply s hs => hp.carry (hstrand.2 reply) hs
  | calling due c next =>
    obtain ⟨hdue, hc, hnext⟩ := hstrand
    obtain ⟨hs', hanswer⟩ := hp.answered hc hs
    have hdue' : due ≤ h.now s := by simpa [Host.isAble] using able
    obtain rfl : due = (see s).now := (Nat.le_antisymm hdue' hdue).trans (hp.now hs).symm
    obtain ⟨hs'', hstrand, hcomes⟩ := hp.carry (hnext (h.answer s l c).2) hs'
    refine ⟨hs'', hstrand, fun r hr => ?_⟩
    obtain ⟨m', hm'⟩ := hcomes r hr
    exact ⟨_, _, m', hanswer, hm'⟩
  | ended result => cases able

end Plays

end Host

end DeviceSuite
