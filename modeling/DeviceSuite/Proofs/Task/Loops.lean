import DeviceSuite.Proofs.Task.Terms
import DeviceSuite.Task.Poll
import DeviceSuite.Task.Retry

/-!
# Retrying and polling under terms

Between two attempts, and between two polls, the stop flag is looked at when nothing is left to wait
for. So a call that may be made only while no stop is requested may be made by every attempt, if it
may be made by the first, and by every poll.
-/

namespace DeviceSuite

namespace Task

variable {C : Type} {R : C → Type} {α ε V : Type} {T : Terms R V} {J F X : V → Prop}

/-- A retried operation keeps what each attempt keeps; an attempt is made where the flag is known
not to be raised. -/
theorem abides_attempts (hdrift : ∀ {v v'}, J v → T.drifts v v' → J v')
    (hfree : ∀ {v}, J v → T.reads v false → F v) {mayPass : ε → Bool}
    {onRetry : Nat → ε → Task R Unit}
    (hhook : ∀ i e {v}, J v → (onRetry i e).Abides T (Upon X fun _ => J) v)
    {operation : Nat → Task R (Except ε α)}
    (hoperation : ∀ i {v}, F v → (operation i).Abides T (Upon X fun _ => J) v)
    (delayMs : Nat) {left i : Nat} {v : V} (hv : F v) :
    (attempts delayMs mayPass onRetry operation left i).Abides T (Upon X fun _ => J) v := by
  induction left generalizing i v with
  | zero => exact hoperation i hv
  | succ left ih =>
    rw [attempts]
    apply (hoperation i hv).bind
    intro r v hv
    cases r with
    | ok a => exact hv
    | error e =>
      apply Task.Abides.isStopped_bind
      intro stopped _
      split
      · exact hv
      · apply (hhook i e hv).bind
        intro _ v hv
        apply Task.Abides.sleep_bind
        intro v' stopped hd hread
        cases stopped with
        | true => exact hdrift hv hd
        | false => exact ih (hfree (hdrift hv hd) hread)

/-- A retried operation abides by its terms if each attempt does where the flag is not raised. -/
theorem abides_retry (hdrift : ∀ {v v'}, J v → T.drifts v v' → J v')
    (hfree : ∀ {v}, J v → T.reads v false → F v) {mayPass : ε → Bool}
    {operation : Nat → Task R (Except ε α)}
    (hoperation : ∀ i {v}, F v → (operation i).Abides T (Upon X fun _ => J) v)
    (policy : RetryPolicy) {v : V} (hv : F v) :
    (retry policy mayPass operation).Abides T (Upon X fun _ => J) v :=
  abides_attempts hdrift hfree (fun _ _ _ hv => abides_pure.2 hv) hoperation _ hv

/-- A polled probe keeps what each call keeps; a call is made where the flag is known not to be
raised. -/
theorem abides_polls (hdrift : ∀ {v v'}, J v → T.drifts v v' → J v')
    (hfree : ∀ {v}, J v → T.reads v false → F v) (hcrash : ∀ {v}, J v → X v) {stopped : ε}
    {probe : Task R (Except ε (Option α))}
    (hprobe : ∀ {v}, F v → probe.Abides T (Upon X fun _ => J) v) (policy : PollPolicy)
    (started : Nat) {left iterations : Nat} {v : V} (hv : J v) :
    (polls policy stopped probe started left iterations).Abides T (Upon X fun _ => J) v := by
  induction left generalizing iterations v with
  | zero =>
    rw [polls]
    apply Task.Abides.now_bind
    intro ms
    dsimp only
    split
    · exact hv
    · apply Task.Abides.isStopped_bind
      intro b _
      cases b with
      | true => exact hv
      | false => exact hcrash hv
  | succ left ih =>
    rw [polls]
    apply Task.Abides.now_bind
    intro ms
    dsimp only
    split
    · exact hv
    · apply Task.Abides.isStopped_bind
      intro b hread
      cases b with
      | true => exact hv
      | false =>
        apply Task.Abides.now_bind
        intro called
        apply (hprobe (hfree hv hread)).bind
        intro r v hv
        rcases r with e | _ | a
        · exact hv
        · apply Task.Abides.now_bind
          intro ms
          split
          · exact .yield_bind fun v' hd => ih (hdrift hv hd)
          · apply Task.Abides.sleep_bind
            intro v' b hd _
            cases b with
            | true => exact hdrift hv hd
            | false => exact ih (hdrift hv hd)
        · exact fun ms => hv

/-- Polling abides by its terms if the probe does where the flag is not raised. -/
theorem abides_pollUntil (hdrift : ∀ {v v'}, J v → T.drifts v v' → J v')
    (hfree : ∀ {v}, J v → T.reads v false → F v) (hcrash : ∀ {v}, J v → X v) {stopped : ε}
    {probe : Task R (Except ε (Option α))}
    (hprobe : ∀ {v}, F v → probe.Abides T (Upon X fun _ => J) v) (policy : PollPolicy) {v : V}
    (hv : J v) : (pollUntil policy stopped probe).Abides T (Upon X fun _ => J) v :=
  fun ms => abides_polls hdrift hfree hcrash hprobe policy ms hv

end Task

end DeviceSuite
