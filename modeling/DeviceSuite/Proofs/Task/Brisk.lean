import DeviceSuite.Proofs.Task.Record

/-!
# Brisk tasks

A brisk task neither pauses nor gives way, so wherever it stands it stands at a call: one that
waits for its turn, or one that is under way, which then is the last that it has begun.
-/

namespace DeviceSuite

variable {C : Type} {R : C → Type} {α β L σ : Type}

namespace Task

/-- A task that neither pauses nor gives way. -/
def Brisk : Task R α → Prop
  | done _ | crash => True
  | clock next => ∀ ms, (next ms).Brisk
  | stopRequested next => ∀ b, (next b).Brisk
  | pause _ _ | giveWay _ => False
  | call _ next => ∀ r, (next r).Brisk

/-- To end at once is brisk. -/
theorem brisk_pure (a : α) : (pure a : Task R α).Brisk := trivial

/-- To read the clock is brisk. -/
theorem brisk_now : (now : Task R Nat).Brisk := fun _ => trivial

/-- To read the stop flag is brisk. -/
theorem brisk_isStopped : (isStopped : Task R Bool).Brisk := fun _ => trivial

/-- To make a call is brisk. -/
theorem brisk_ask (c : C) : (ask c : Task R (R c)).Brisk := by
  intro r
  cases r <;> trivial

/-- Brisk tasks one after the other are brisk. -/
theorem Brisk.bind {t : Task R α} {f : α → Task R β} (ht : t.Brisk) (hf : ∀ a, (f a).Brisk) :
    (t >>= f).Brisk := by
  induction t with
  | done a => exact hf a
  | crash => trivial
  | clock next ih => exact fun ms => ih ms (ht ms)
  | stopRequested next ih => exact fun b => ih b (ht b)
  | pause ms next ih => exact ht.elim
  | giveWay next ih => exact ht.elim
  | call c next ih => exact fun r => ih r (ht r)

end Task

/-- A brisk strand has ended or stands at a call: one of `W` that waits, or the last that it has
begun. -/
def Strand.AtCall [DecidableEq L] (l : L) (W : C → Prop) (log : List (Begun C L)) :
    Strand R α → Prop
  | ready _ | resting _ _ => False
  | waiting c next => W c ∧ ∀ r, (next r).Brisk
  | calling _ c next => (log.filter fun e => e.label = l).getLast?.map Begun.call = some c ∧
    ∀ r, (next r).Brisk
  | ended _ => True

/-- Where a strand stands does not depend on the calls of others. -/
theorem Strand.AtCall.congr [DecidableEq L] {l : L} {W : C → Prop} {log log' : List (Begun C L)}
    {strand : Strand R α} (h : strand.AtCall l W log)
    (hlog : (log'.filter fun e => e.label = l) = log.filter fun e => e.label = l) :
    strand.AtCall l W log' := by
  cases strand with
  | calling due c next => exact ⟨hlog ▸ h.1, h.2⟩
  | _ => exact h

namespace Host

variable {h : Host R α L σ} {l : L} {W : C → Prop} [DecidableEq L]

/-- A brisk task that is carried on comes to stand at a call. -/
theorem atCall_carry (hW : ∀ s c, h.admits (h.announce s l c) l c = false → W c)
    {task : Task R α} (ht : task.Brisk) (s : σ) (log : List (Begun C L)) :
    (h.recorded.carry l task (s, log)).2.AtCall l W (h.recorded.carry l task (s, log)).1.2 := by
  induction task generalizing s log with
  | done a => trivial
  | crash => trivial
  | clock next ih => exact ih _ (ht _) s log
  | stopRequested next ih => exact ih _ (ht _) s log
  | pause ms next ih => exact ht.elim
  | giveWay next ih => exact ht.elim
  | call c next ih =>
    have hann : h.recorded.announce (s, log) l c = (h.announce s l c, log) := rfl
    rw [carry, hann, recorded_take]
    split
    · rcases h.take (h.announce s l c) l c with ⟨s', due | reply⟩
      · exact ⟨by simp [List.filter_append], ht⟩
      · exact ih reply (ht reply) s' _
    · next hadm => exact ⟨hW s c (by simpa [recorded] using hadm), ht⟩

/-- A brisk strand that goes on comes to stand at a call again. -/
theorem atCall_resume (hW : ∀ s c, h.admits (h.announce s l c) l c = false → W c)
    {strand : Strand R α} {log : List (Begun C L)} (hs : strand.AtCall l W log) (s : σ) :
    (h.resume l strand s).2.AtCall l W (log ++ h.callsOf l strand s) := by
  suffices hgo : (h.recorded.resume l strand (s, log)).2.AtCall l W
      (h.recorded.resume l strand (s, log)).1.2 by
    rwa [recorded_resume] at hgo
  cases strand with
  | ready task => exact hs.elim
  | resting due next => exact hs.elim
  | waiting c next =>
    rw [resume, recorded_take]
    rcases h.take s l c with ⟨s', due | reply⟩
    · exact ⟨by simp [List.filter_append], hs.2⟩
    · exact atCall_carry hW (hs.2 reply) s' _
  | calling due c next => exact atCall_carry hW (hs.2 _) _ log
  | ended result => trivial

/-- A brisk task that begins comes to stand at a call. -/
theorem atCall_begin (hW : ∀ s c, h.admits (h.announce s l c) l c = false → W c)
    {task : Task R α} (ht : task.Brisk) (log : List (Begun C L)) (s : σ) :
    (h.resume l (.ready task) s).2.AtCall l W (log ++ h.callsOf l (.ready task) s) := by
  have hgo := atCall_carry hW ht s log
  rwa [recorded_carry] at hgo

end Host

end DeviceSuite
