import DeviceSuite.Proofs.Task.Keeping
import DeviceSuite.Proofs.Task.Transcript

/-!
# Minutes

A host can take minutes of what goes on before it: which task has begun which call, and how the call
was answered. Taking them changes nothing. The minutes of one task are the beginning of a
transcript of it, and once the task has ended all of one: so what is true of all transcripts of a
task is seen in the minutes.
-/

namespace DeviceSuite

/-- What is written down of a call: that it has begun, and how it was answered. -/
inductive Minute {C : Type} (R : C → Type) (L : Type) where
  | begun (label : L) (call : C)
  | answered (label : L) (call : C) (reply : Option (R call))

variable {C : Type} {R : C → Type} {α L σ : Type}

namespace Minute

/-- The task that a minute is about. -/
def label : Minute R L → L
  | begun l _ | answered l _ _ => l

/-- The call that a minute is about. -/
def call : Minute R L → C
  | begun _ c | answered _ c _ => c

end Minute

/-- The minutes of what a task is told; only its calls are written down. -/
def Answer.minutes (l : L) : Answer R → List (Minute R L)
  | reply c r => [.begun l c, .answered l c r]
  | _ => []

/-- The minutes of a transcript. -/
def minutesOf (l : L) (told : List (Answer R)) : List (Minute R L) := told.flatMap (Answer.minutes l)

/-- Where nothing is told, there are no minutes. -/
@[simp] theorem minutesOf_nil (l : L) : minutesOf l ([] : List (Answer R)) = [] := rfl

/-- Two transcripts one after the other have the minutes of each. -/
@[simp] theorem minutesOf_append (l : L) (told more : List (Answer R)) :
    minutesOf l (told ++ more) = minutesOf l told ++ minutesOf l more :=
  List.flatMap_append

/-- The minutes of an answer come before those of the later ones. -/
@[simp] theorem minutesOf_cons (l : L) (a : Answer R) (told : List (Answer R)) :
    minutesOf l (a :: told) = a.minutes l ++ minutesOf l told :=
  List.flatMap_cons

/-- What is not the answer to a call is not written down. -/
theorem minutesOf_append_of_none (l : L) (told : List (Answer R)) {a : Answer R}
    (ha : a.call? = none) : minutesOf l (told ++ [a]) = minutesOf l told := by
  cases a with
  | reply c r => cases ha
  | _ => simp [Answer.minutes]

/-- The minutes of a transcript are about its calls. -/
theorem call_of_mem_minutesOf {l : L} {told : List (Answer R)} {m : Minute R L}
    (h : m ∈ minutesOf l told) : m.call ∈ told.filterMap Answer.call? := by
  obtain ⟨a, ha, hm⟩ := List.mem_flatMap.1 h
  refine List.mem_filterMap.2 ⟨a, ha, ?_⟩
  cases a with
  | reply c r =>
    rcases List.mem_cons.1 hm with rfl | hm
    · rfl
    · exact List.mem_singleton.1 hm ▸ rfl
  | _ => cases hm

/-! ## Taking minutes -/

namespace Host

variable (h : Host R α L σ)

/-- The host with minutes. -/
def minuted : Host R α L (σ × List (Minute R L)) where
  now s := h.now s.1
  atTime time s := (h.atTime time s.1, s.2)
  isStopped s := h.isStopped s.1
  announce s l c := (h.announce s.1 l c, s.2)
  admits s := h.admits s.1
  accept s l c := (((h.accept s.1 l c).1, s.2 ++ [.begun l c]), (h.accept s.1 l c).2)
  answer s l c :=
    (((h.answer s.1 l c).1, s.2 ++ [.answered l c (h.answer s.1 l c).2]), (h.answer s.1 l c).2)
  finish s l result := (h.finish s.1 l result, s.2)

/-- The minutes of a strand that goes on. -/
def minutesOf (l : L) (strand : Strand R α) (s : σ) : List (Minute R L) :=
  (h.minuted.resume l strand (s, [])).1.2

/-- The minutes of a call that is taken. -/
def minutesOfTake (s : σ) (l : L) (c : C) : List (Minute R L) :=
  match (h.take s l c).2 with
  | .inl _ => [.begun l c]
  | .inr reply => [.begun l c, .answered l c reply]

/-- To take a call with minutes is to take it and to write them down. -/
theorem minuted_take (s : σ) (log : List (Minute R L)) (l : L) (c : C) :
    h.minuted.take (s, log) l c =
      (((h.take s l c).1, log ++ h.minutesOfTake s l c), (h.take s l c).2) := by
  simp only [minutesOfTake, take, minuted]
  by_cases hms : (h.accept s l c).2 = 0 <;> simp [hms]

/-- The minutes of a task that is carried on are appended to those taken before. -/
theorem minuted_carry (l : L) (task : Task R α) (s : σ) (log : List (Minute R L)) :
    h.minuted.carry l task (s, log) =
      (((h.carry l task s).1, log ++ (h.minuted.carry l task (s, [])).1.2),
        (h.carry l task s).2) := by
  induction task generalizing s log with
  | done a => simp [carry, minuted]
  | crash => simp [carry, minuted]
  | clock next ih => exact ih _ s log
  | stopRequested next ih => exact ih _ s log
  | pause ms next ih =>
    have hstop : ∀ log, h.minuted.isStopped (s, log) l = h.isStopped s l := fun _ => rfl
    simp only [carry, hstop]
    split
    · exact ih _ s log
    · split
      · exact ih _ s log
      · simp [minuted]
  | giveWay next ih => simp [carry]
  | call c next ih =>
    have hann : ∀ log : List (Minute R L),
        h.minuted.announce (s, log) l c = (h.announce s l c, log) := fun _ => rfl
    have hadm : ∀ (s : σ) (log : List (Minute R L)),
        h.minuted.admits (s, log) l c = h.admits s l c := fun _ _ => rfl
    simp only [carry, hann, hadm, minuted_take]
    split
    · rcases h.take (h.announce s l c) l c with ⟨s', due | reply⟩
      · simp
      · dsimp only
        rw [ih reply s' (log ++ _), ih reply s' ([] ++ _)]
        simp [List.append_assoc]
    · simp

/-- A strand goes on with minutes as without. -/
theorem minuted_resume (l : L) (strand : Strand R α) (s : σ) (log : List (Minute R L)) :
    h.minuted.resume l strand (s, log) =
      (((h.resume l strand s).1, log ++ h.minutesOf l strand s), (h.resume l strand s).2) := by
  cases strand with
  | ready task => exact h.minuted_carry l task s log
  | resting due next => exact h.minuted_carry l _ s log
  | waiting c next =>
    simp only [minutesOf, resume, minuted_take]
    rcases h.take s l c with ⟨s', due | reply⟩
    · simp
    · dsimp only
      rw [minuted_carry h l _ s' (log ++ _), minuted_carry h l _ s' ([] ++ _)]
      simp [List.append_assoc]
  | calling due c next =>
    have hanswer : ∀ log : List (Minute R L), h.minuted.answer (s, log) l c =
        (((h.answer s l c).1, log ++ [.answered l c (h.answer s l c).2]), (h.answer s l c).2) :=
      fun _ => rfl
    simp only [minutesOf, resume, hanswer]
    rw [minuted_carry h l _ _ (log ++ _), minuted_carry h l _ _ ([] ++ _)]
    simp [List.append_assoc]
  | ended result => simp [minutesOf, resume]

end Host

/-! ## Minutes and transcripts -/

namespace Task

/-- A task that is told this has the other one left to do. -/
inductive After {α : Type} : Task R α → List (Answer R) → Task R α → Prop where
  | refl (t : Task R α) : After t [] t
  | clock {next : Nat → Task R α} {t : Task R α} {told : List (Answer R)} {ms : Nat} :
    After t told (.clock next) → After t (told ++ [.time ms]) (next ms)
  | stopRequested {next : Bool → Task R α} {t : Task R α} {told : List (Answer R)} {b : Bool} :
    After t told (.stopRequested next) → After t (told ++ [.flag b]) (next b)
  | pause {ms : Nat} {next : Bool → Task R α} {t : Task R α} {told : List (Answer R)}
    {full : Bool} :
    After t told (.pause ms next) → After t (told ++ [.rested full]) (next full)
  | giveWay {next t : Task R α} {told : List (Answer R)} :
    After t told (.giveWay next) → After t (told ++ [.turn]) next
  | call {c : C} {next : Option (R c) → Task R α} {t : Task R α} {told : List (Answer R)}
    {reply : Option (R c)} :
    After t told (.call c next) → After t (told ++ [.reply c reply]) (next reply)

variable {t u : Task R α} {told more : List (Answer R)} {r : Option α}

/-- What is left to do makes a transcript whole. -/
theorem After.yields (h : t.After told u) (hu : u.Yields more r) : t.Yields (told ++ more) r := by
  induction h generalizing more with
  | refl => exact hu
  | clock _ ih => exact List.append_assoc .. ▸ ih (.clock hu)
  | stopRequested _ ih => exact List.append_assoc .. ▸ ih (.stopRequested hu)
  | pause _ ih => exact List.append_assoc .. ▸ ih (.pause hu)
  | giveWay _ ih => exact List.append_assoc .. ▸ ih (.giveWay hu)
  | call _ ih => exact List.append_assoc .. ▸ ih (.call hu)

/-- Every task has a transcript. -/
theorem exists_yields (t : Task R α) : ∃ told r, t.Yields told r := by
  induction t with
  | done a => exact ⟨_, _, .done⟩
  | crash => exact ⟨_, _, .crash⟩
  | clock next ih => exact (ih 0).imp' _ fun _ => .imp fun _ => .clock
  | stopRequested next ih => exact (ih false).imp' _ fun _ => .imp fun _ => .stopRequested
  | pause ms next ih => exact (ih false).imp' _ fun _ => .imp fun _ => .pause
  | giveWay next ih => exact ih.imp' _ fun _ => .imp fun _ => .giveWay
  | call c next ih => exact (ih none).imp' _ fun _ => .imp fun _ => .call

end Task

namespace Strand

/-- A task of which such minutes have been taken stands here. -/
def Minuted (l : L) (t : Task R α) (log : List (Minute R L)) : Strand R α → Prop
  | ready u => ∃ told, t.After told u ∧ log = minutesOf l told
  | resting _ next => ∃ told ms, t.After told (.pause ms next) ∧ log = minutesOf l told
  | waiting c next => ∃ told, t.After told (.call c next) ∧ log = minutesOf l told
  | calling _ c next => ∃ told, t.After told (.call c next) ∧ log = minutesOf l told ++ [.begun l c]
  | ended result => ∃ told, t.Yields told result ∧ log = minutesOf l told

variable {l : L} {t : Task R α} {log : List (Minute R L)} {strand : Strand R α}

/-- The minutes of a task are the beginning of a transcript, and all of one when it has ended. -/
theorem Minuted.transcript (h : strand.Minuted l t log) :
    ∃ told r, t.Yields told r ∧ log <+: minutesOf l told ∧
      ∀ result, strand = .ended result → result = r ∧ log = minutesOf l told := by
  have hleft : ∀ {u told}, t.After told u → log = minutesOf l told →
      ∃ told r, t.Yields told r ∧ log <+: minutesOf l told := by
    rintro u told hafter rfl
    obtain ⟨more, r, hmore⟩ := u.exists_yields
    exact ⟨_, r, hafter.yields hmore, by simp⟩
  cases strand with
  | ready u =>
    obtain ⟨told, hafter, hlog⟩ := h
    obtain ⟨told', r, hyields, hstart⟩ := hleft hafter hlog
    exact ⟨told', r, hyields, hstart, nofun⟩
  | resting due next =>
    obtain ⟨told, ms, hafter, hlog⟩ := h
    obtain ⟨told', r, hyields, hstart⟩ := hleft hafter hlog
    exact ⟨told', r, hyields, hstart, nofun⟩
  | waiting c next =>
    obtain ⟨told, hafter, hlog⟩ := h
    obtain ⟨told', r, hyields, hstart⟩ := hleft hafter hlog
    exact ⟨told', r, hyields, hstart, nofun⟩
  | calling due c next =>
    obtain ⟨told, hafter, rfl⟩ := h
    obtain ⟨more, r, hmore⟩ := (next none).exists_yields
    exact ⟨_, r, hafter.yields (.call hmore), by simp [Answer.minutes], nofun⟩
  | ended result =>
    obtain ⟨told, hyields, rfl⟩ := h
    exact ⟨told, result, hyields, List.prefix_rfl, by rintro _ ⟨⟩; exact ⟨rfl, rfl⟩⟩

end Strand

namespace Host

variable {h : Host R α L σ} {l : L} {t : Task R α}

/-- A strand whose call is taken leaves minutes of what it is told. -/
theorem minuted_of_waiting {c : C} {next : Option (R c) → Task R α} {told : List (Answer R)}
    (ih : ∀ r {told}, t.After told (next r) → ∀ s, (h.carry l (next r) s).2.Minuted l t
      (DeviceSuite.minutesOf l told ++ h.minutesOf l (.ready (next r)) s))
    (hafter : t.After told (.call c next)) (s : σ) :
    (h.resume l (.waiting c next) s).2.Minuted l t
      (DeviceSuite.minutesOf l told ++ h.minutesOf l (.waiting c next) s) := by
  simp only [minutesOf, resume, minuted_take, minutesOfTake]
  rcases h.take s l c with ⟨s', due | reply⟩
  · exact ⟨told, hafter, rfl⟩
  · have hcall : t.After (told ++ [.reply c reply]) (next reply) := hafter.call
    have hnext := ih reply hcall s'
    dsimp only
    rw [minuted_carry]
    simpa [Answer.minutes, minutesOf, resume] using hnext

/-- A task that is carried on leaves minutes of what it is told. -/
theorem minuted_of_carry {u : Task R α} {told : List (Answer R)} (hafter : t.After told u) (s : σ) :
    (h.carry l u s).2.Minuted l t
      (DeviceSuite.minutesOf l told ++ h.minutesOf l (.ready u) s) := by
  induction u generalizing told s with
  | done a => exact ⟨_, hafter.yields .done, by simp [minutesOf, resume, carry, minuted]⟩
  | crash => exact ⟨_, hafter.yields .crash, by simp [minutesOf, resume, carry, minuted]⟩
  | clock next ih =>
    have hnext := ih (h.now s) hafter.clock s
    rwa [minutesOf_append_of_none l told rfl] at hnext
  | stopRequested next ih =>
    have hnext := ih (h.isStopped s l) hafter.stopRequested s
    rwa [minutesOf_append_of_none l told rfl] at hnext
  | pause ms next ih =>
    have hnext : ∀ full, (h.carry l (next full) s).2.Minuted l t
        (DeviceSuite.minutesOf l told ++ h.minutesOf l (.ready (next full)) s) := by
      intro full
      have hnext := ih full hafter.pause s
      rwa [minutesOf_append_of_none l told rfl] at hnext
    have hstop : h.minuted.isStopped (s, []) l = h.isStopped s l := rfl
    simp only [minutesOf, resume, carry, hstop]
    split
    · exact hnext false
    · split
      · exact hnext true
      · exact ⟨told, ms, hafter, by simp⟩
  | giveWay next ih =>
    exact ⟨_, hafter.giveWay, by simp [minutesOf, resume, carry, Answer.minutes]⟩
  | call c next ih =>
    have hann : h.minuted.announce (s, []) l c = (h.announce s l c, []) := rfl
    have hadm : ∀ s : σ, h.minuted.admits (s, []) l c = h.admits s l c := fun _ => rfl
    simp only [minutesOf, resume, carry, hann, hadm]
    split
    · exact minuted_of_waiting (fun r _ hafter => ih r hafter) hafter _
    · exact ⟨told, hafter, by simp⟩

/-- The minutes of a strand go on with those of its turn. -/
theorem minuted_of_resume {strand : Strand R α} {log : List (Minute R L)}
    (hm : strand.Minuted l t log) (s : σ) :
    (h.resume l strand s).2.Minuted l t (log ++ h.minutesOf l strand s) := by
  cases strand with
  | ready u =>
    obtain ⟨told, hafter, rfl⟩ := hm
    exact minuted_of_carry hafter s
  | resting due next =>
    obtain ⟨told, ms, hafter, rfl⟩ := hm
    have hpause : t.After (told ++ [.rested !h.isStopped s l]) (next !h.isStopped s l) :=
      hafter.pause
    have hnext := minuted_of_carry (h := h) (l := l) hpause s
    rwa [minutesOf_append_of_none l told rfl] at hnext
  | waiting c next =>
    obtain ⟨told, hafter, rfl⟩ := hm
    exact minuted_of_waiting (fun r _ hafter => minuted_of_carry hafter) hafter s
  | calling due c next =>
    obtain ⟨told, hafter, rfl⟩ := hm
    obtain ⟨s', reply, hanswer⟩ : ∃ s' reply, h.answer s l c = (s', reply) := ⟨_, _, rfl⟩
    have hcall : t.After (told ++ [.reply c reply]) (next reply) := hafter.call
    have hnext := minuted_of_carry (h := h) (l := l) hcall s'
    have hminutes : h.minutesOf l (.calling due c next) s =
        [.answered l c reply] ++ h.minutesOf l (.ready (next reply)) s' := by
      have hanswer' : h.minuted.answer (s, []) l c = ((s', [.answered l c reply]), reply) := by
        simp [minuted, hanswer]
      simp only [minutesOf, resume, hanswer']
      rw [minuted_carry]
    rw [hminutes]
    simp only [resume, hanswer]
    simpa [Answer.minutes, List.append_assoc] using hnext
  | ended result => simpa [resume, minutesOf] using hm

/-- The minutes of a strand that goes on are of its own calls. -/
theorem mem_minutesOf {H : C → Prop} {Q : α → Prop} {strand : Strand R α} {s : σ}
    (able : h.isAble s l strand = true) (hmakes : strand.Makes H Q) :
    ∀ m ∈ h.minutesOf l strand s, m.label = l ∧ H m.call := by
  let own (x : σ × List (Minute R L)) : Prop := ∀ m ∈ x.2, m.label = l ∧ H m.call
  have hadd : ∀ {m : Minute R L} {x : σ × List (Minute R L)}, own x → m.label = l → H m.call →
      own (x.1, x.2 ++ [m]) := by
    intro m x hx hlabel hcall m' hm'
    rcases List.mem_append.1 hm' with hold | hnew
    · exact hx m' hold
    · exact List.mem_singleton.1 hnew ▸ ⟨hlabel, hcall⟩
  have hkeeps : h.minuted.Keeps l H own (fun _ => own) fun _ => own :=
    keeps_of_phases (fun _ _ _ hx => hx) (fun _ _ hc hx _ => hadd hx rfl hc)
      (fun _ _ hc hx => hadd hx rfl hc)
  have hstands : strand.Stands own (fun _ => own) (fun _ => own) (s, []) := by
    cases strand <;> simp [Strand.Stands, own]
  have able' : h.minuted.isAble (s, []) l strand = true := by
    cases strand <;> exact able
  exact (hkeeps.resume able' hmakes hstands).2.shared (fun _ hx => hx) (fun _ _ hx => hx)
    (fun _ _ hx => hx) fun _ _ hx => hx

end Host

end DeviceSuite
