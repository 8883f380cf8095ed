import DeviceSuite.Proofs.Task.Terms
import DeviceSuite.Task.Strand

/-!
# What a strand keeps

A strand that goes on does one call after the other until it stands. What each of its calls keeps
true of the shared state, the strand keeps: it is true wherever the strand has no call under way,
and while it stands in a call, what the call says instead. The end of its task comes last.
-/

namespace DeviceSuite

variable {C : Type} {R : C → Type} {α L σ : Type}

namespace Strand

/-- A strand makes only certain calls from where it stands, and its result is a certain one. -/
def Makes (H : C → Prop) (Q : α → Prop) : Strand R α → Prop
  | ready task => task.Only H Q
  | resting _ next => ∀ b, (next b).Only H Q
  | waiting c next | calling _ c next => H c ∧ ∀ r, (next r).Only H Q
  | ended result => ∀ a ∈ result, Q a

/-- What is true of a shared state where a strand stands: `W` while a call waits for its turn, `Y`
while one is under way, and `P` elsewhere. -/
def Stands (P : σ → Prop) (W Y : C → σ → Prop) (s : σ) : Strand R α → Prop
  | ready _ | resting _ _ => P s
  | waiting c _ => W c s
  | calling _ c _ => Y c s
  | ended _ => True

/-- A strand may make any calls. -/
theorem makes_any (strand : Strand R α) : strand.Makes (fun _ => True) fun _ => True := by
  cases strand with
  | ready task => exact task.only_any
  | resting due next => exact fun _ => Task.only_any _
  | waiting c next => exact ⟨trivial, fun _ => Task.only_any _⟩
  | calling due c next => exact ⟨trivial, fun _ => Task.only_any _⟩
  | ended result => exact fun _ _ => trivial

end Strand

namespace Host

variable (h : Host R α L σ) (l : L)

/-- What is true after a call has been taken. -/
def Takes (P : σ → Prop) (Y : C → σ → Prop) (c : C) (s : σ) : Prop :=
  match h.take s l c with
  | (s', .inl _) => Y c s'
  | (s', .inr _) => P s'

/-- What is true where a strand has come to; when it has ended, its end came last. -/
def Leaves (P : σ → Prop) (W Y : C → σ → Prop) (x : σ × Strand R α) : Prop :=
  x.2.Stands P W Y x.1 ∧ ∀ result, x.2 = .ended result → ∃ s, P s ∧ x.1 = h.finish s l result

/-- The calls of a strand keep something true of the shared state. -/
structure Keeps (H : C → Prop) (P : σ → Prop) (W Y : C → σ → Prop) : Prop where
  announced : ∀ {s c}, H c → P s → h.admits (h.announce s l c) l c = false →
    W c (h.announce s l c)
  begun : ∀ {s c}, H c → P s → h.admits (h.announce s l c) l c = true →
    h.Takes l P Y c (h.announce s l c)
  resumed : ∀ {s c}, H c → W c s → h.admits s l c = true → h.Takes l P Y c s
  answered : ∀ {s c}, H c → Y c s → P (h.answer s l c).1

variable {h l} {H : C → Prop} {P : σ → Prop} {W Y : C → σ → Prop} {Q : α → Prop} {s : σ}

/-- A strand leaves something true when it has ended where it was. -/
theorem leaves_ended {result : Option α} (hs : P s) :
    h.Leaves l P W Y (h.finish s l result, .ended result) :=
  ⟨trivial, by rintro _ ⟨⟩; exact ⟨s, hs, rfl⟩⟩

/-- A strand that has not ended leaves what is true where it stands. -/
theorem leaves_of_stands {strand : Strand R α} (h' : strand.Stands P W Y s)
    (hopen : strand.result? = none) : h.Leaves l P W Y (s, strand) :=
  ⟨h', by rintro _ rfl; cases hopen⟩

/-- What is true wherever a strand may stand, and after its end, is true where it has come to. -/
theorem Leaves.shared {x : σ × Strand R α} {P' : σ → Prop} (h' : h.Leaves l P W Y x)
    (hP : ∀ s, P s → P' s) (hW : ∀ c s, W c s → P' s) (hY : ∀ c s, Y c s → P' s)
    (hfinish : ∀ s r, P s → P' (h.finish s l r)) : P' x.1 := by
  obtain ⟨s, strand⟩ := x
  cases strand with
  | ended result =>
    obtain ⟨s', hs', hend⟩ := h'.2 result rfl
    exact hend ▸ hfinish s' result hs'
  | ready task => exact hP s h'.1
  | resting due next => exact hP s h'.1
  | waiting c next => exact hW c s h'.1
  | calling due c next => exact hY c s h'.1

/-- A call that is taken is kept to, and so is what comes after it. -/
theorem leaves_take {c : C} {next : Option (R c) → Task R α}
    (ih : ∀ r s, P s → (h.carry l (next r) s).2.Makes H Q ∧ h.Leaves l P W Y (h.carry l (next r) s))
    (hc : H c ∧ ∀ r, (next r).Only H Q) (hs : h.Takes l P Y c s) :
    let x := match h.take s l c with
      | (s, .inl due) => (s, .calling due c next)
      | (s, .inr reply) => h.carry l (next reply) s
    x.2.Makes H Q ∧ h.Leaves l P W Y x := by
  unfold Takes at hs
  rcases htake : h.take s l c with ⟨s', due | reply⟩
  · rw [htake] at hs
    exact ⟨hc, leaves_of_stands hs rfl⟩
  · rw [htake] at hs
    exact ih reply s' hs

namespace Keeps

/-- A task that is carried on as far as it goes by itself. -/
theorem carry (hk : h.Keeps l H P W Y) {task : Task R α} (ht : task.Only H Q) (hs : P s) :
    (h.carry l task s).2.Makes H Q ∧ h.Leaves l P W Y (h.carry l task s) := by
  induction task generalizing s with
  | done a => exact ⟨by rintro _ ⟨⟩; exact ht, leaves_ended hs⟩
  | crash => exact ⟨nofun, leaves_ended hs⟩
  | clock next ih => exact ih _ (ht _) hs
  | stopRequested next ih => exact ih _ (ht _) hs
  | pause ms next ih =>
    rw [Host.carry]
    split
    · exact ih _ (ht _) hs
    · split
      · exact ih _ (ht _) hs
      · exact ⟨ht, leaves_of_stands hs rfl⟩
  | giveWay next ih => exact ⟨ht, leaves_of_stands hs rfl⟩
  | call c next ih =>
    rw [Host.carry]
    by_cases hadm : h.admits (h.announce s l c) l c = true
    · simp only [hadm, ↓reduceIte]
      exact leaves_take (fun r s => ih r (ht.2 r)) ht (hk.begun ht.1 hs hadm)
    · simp only [hadm]
      exact ⟨ht, leaves_of_stands (hk.announced ht.1 hs (by simpa using hadm)) rfl⟩

/-- A strand that is able to go on. -/
theorem resume (hk : h.Keeps l H P W Y) {strand : Strand R α} (able : h.isAble s l strand = true)
    (hm : strand.Makes H Q) (hs : strand.Stands P W Y s) :
    (h.resume l strand s).2.Makes H Q ∧ h.Leaves l P W Y (h.resume l strand s) := by
  cases strand with
  | ready task => exact hk.carry hm hs
  | resting due next => exact hk.carry (hm _) hs
  | waiting c next =>
    exact leaves_take (fun r s hs => hk.carry (hm.2 r) hs) hm (hk.resumed hm.1 hs able)
  | calling due c next => exact hk.carry (hm.2 _) (hk.answered hm.1 hs)
  | ended result => cases able

end Keeps

/-- A call is announced, begun and answered, one after the other. -/
theorem keeps_of_phases (announce : ∀ s c, H c → P s → W c (h.announce s l c))
    (accept : ∀ s c, H c → W c s → h.admits s l c = true → Y c (h.accept s l c).1)
    (answer : ∀ s c, H c → Y c s → P (h.answer s l c).1) : h.Keeps l H P W Y := by
  have htakes : ∀ {s c}, H c → W c s → h.admits s l c = true → h.Takes l P Y c s := by
    intro s c hc hs hadm
    simp only [Takes, Host.take]
    by_cases hms : (h.accept s l c).2 = 0
    · simp only [hms, ↓reduceIte]
      exact answer _ c hc (accept s c hc hs hadm)
    · simp only [hms, ↓reduceIte]
      exact accept s c hc hs hadm
  exact ⟨fun hc hs _ => announce _ _ hc hs, fun hc hs => htakes hc (announce _ _ hc hs), htakes,
    answer _ _⟩

/-- What every part of a call keeps true, its calls keep true. -/
theorem keeps_of_parts (announce : ∀ s c, P s → P (h.announce s l c))
    (accept : ∀ s c, P s → P (h.accept s l c).1) (answer : ∀ s c, P s → P (h.answer s l c).1) :
    h.Keeps l (fun _ => True) P (fun _ => P) fun _ => P :=
  keeps_of_phases (fun s c _ => announce s c) (fun s c _ hs _ => accept s c hs)
    fun s c _ => answer s c

/-- What every part of a call and every end of a task keep true, a strand that goes on keeps
true. -/
theorem resume_keeps (announce : ∀ s c, P s → P (h.announce s l c))
    (accept : ∀ s c, P s → P (h.accept s l c).1) (answer : ∀ s c, P s → P (h.answer s l c).1)
    (finish : ∀ s r, P s → P (h.finish s l r)) {strand : Strand R α}
    (able : h.isAble s l strand = true) (hs : P s) : P (h.resume l strand s).1 := by
  have hstands : ∀ {strand : Strand R α} {s}, P s → strand.Stands P (fun _ => P) (fun _ => P) s := by
    intro strand s hs
    cases strand <;> first | exact hs | trivial
  exact ((keeps_of_parts announce accept answer).resume able strand.makes_any
    (hstands hs)).2.shared (fun _ hs => hs) (fun _ _ hs => hs) (fun _ _ hs => hs) finish

end Host

end DeviceSuite
