import DeviceSuite.Proofs.Task.Exchanges
import DeviceSuite.Task.Retry

/-!
# The tries of one call

An operation that makes one call is retried without a hook. Then the same call is made again and
again, each time but the last with a failure that may pass, and what the last call comes to is what
the retried operation comes to.
-/

namespace DeviceSuite

namespace Task

variable {C : Type} {R : C → Type} {α β ε σ : Type}

/-- A call is made at least once and no more often than the limit allows. It is made again only
after a failure that may pass, and the reply to the last call counts. What a reply says is read by
a function that gives nothing where there is none. -/
structure Tries (c : C) (read : Exchange R → Option (Except ε α)) (mayPass : ε → Bool)
    (limit : Nat) (calls : List (Exchange R)) (reply : Option (Except ε α)) : Prop where
  own : ∀ x ∈ calls, x.call = c
  one_le : 1 ≤ calls.length
  le_limit : calls.length ≤ limit
  again : ∀ x ∈ calls.dropLast, ∃ e, read x = some (.error e) ∧ mayPass e = true
  last : calls.getLast?.bind read = reply

/-- An operation makes one call, and gives what the reply says in its own way. -/
def CallsOnce (s : Service R σ) (m : Moment σ) (c : C) (read : Exchange R → Option (Except ε α))
    (f : α → β) (t : Task R (Except ε β)) : Prop :=
  t.Goes s m fun calls told _ => ∃ x, calls = [x] ∧ x.call = c ∧
    told = (read x).map fun r => r.map f

variable {s : Service R σ} {m : Moment σ} {c : C} {read : Exchange R → Option (Except ε α)}
  {mayPass : ε → Bool} {limit : Nat} {x : Exchange R} {calls : List (Exchange R)}
  {reply : Option (Except ε α)}

/-- One call is a try. -/
theorem Tries.single (hx : x.call = c) : Tries c read mayPass (limit + 1) [x] (read x) where
  own := by simpa using hx
  one_le := Nat.le_refl _
  le_limit := Nat.le_add_left _ _
  again := by simp
  last := rfl

/-- A call that fails in a way that may pass may be tried again. -/
theorem Tries.cons {e : ε} (hx : x.call = c) (he : read x = some (.error e))
    (hpass : mayPass e = true) (h : Tries c read mayPass limit calls reply) :
    Tries c read mayPass (limit + 1) (x :: calls) reply where
  own := List.forall_mem_cons.2 ⟨hx, h.own⟩
  one_le := Nat.le_add_left _ _
  le_limit := Nat.succ_le_succ h.le_limit
  again := by
    rw [List.dropLast_cons_of_ne_nil (List.length_pos_iff.1 h.one_le)]
    exact List.forall_mem_cons.2 ⟨⟨e, he, hpass⟩, h.again⟩
  last := by
    obtain ⟨y, rest, rfl⟩ := List.exists_cons_of_length_pos h.one_le
    rw [List.getLast?_cons_cons]
    exact h.last

/-- The attempts that follow a number of others, as many as are left. What is given by the last one
may depend on its number. -/
theorem goes_attempts {operation : Nat → Task R (Except ε β)} {f : Nat → α → β}
    (hcalls : ∀ m i, CallsOnce s m c read (f i) (operation i)) (delayMs left i : Nat) :
    (attempts delayMs mayPass (fun _ _ => .done ()) operation left (i + 1)).Goes s m
      fun calls told _ => ∃ reply, Tries c read mayPass (left + 1) calls reply ∧
        told = reply.map fun r => r.map (f (i + calls.length)) := by
  induction left generalizing i m with
  | zero =>
    refine (hcalls m (i + 1)).mono fun calls told _ h => ?_
    obtain ⟨x, rfl, hx, rfl⟩ := h
    exact ⟨_, .single hx, rfl⟩
  | succ left ih =>
    rw [attempts, goes_bind]
    refine (hcalls m (i + 1)).mono fun calls told m₁ h => ?_
    obtain ⟨x, rfl, hx, rfl⟩ := h
    have hlast {told} (htold : told = (read x).map fun r => r.map (f (i + 1))) :
        ∃ reply, Tries c read mayPass (left + 1 + 1) [x] reply ∧
          told = reply.map fun r => r.map (f (i + 1)) :=
      ⟨_, .single hx, htold⟩
    cases hreply : read x with
    | none => exact hlast (by rw [hreply]; rfl)
    | some reply =>
      cases reply with
      | ok a => exact hlast (by rw [hreply]; rfl)
      | error e =>
        have hfails : ∃ reply, Tries c read mayPass (left + 1 + 1) [x] reply ∧
            some (.error e) = reply.map fun r => r.map (f (i + 1)) :=
          hlast (by rw [hreply]; rfl)
        dsimp only [Option.map_some, Except.map, Option.elim]
        rw [goes_isStopped_bind]
        split
        · exact hfails
        · next hgoes =>
          have hpass : mayPass e = true := by
            simp only [Bool.or_eq_true, Bool.not_eq_true', not_or, Bool.not_eq_false] at hgoes
            exact hgoes.2
          change (sleep delayMs >>= _).Goes s m₁ _
          rw [goes_sleep_bind]
          split
          · refine (ih (i + 1)).mono fun calls told _ h => ?_
            obtain ⟨reply, htries, rfl⟩ := h
            refine ⟨reply, .cons hx hreply hpass htries, ?_⟩
            rw [List.singleton_append, List.length_cons, Nat.add_right_comm, Nat.add_assoc]
            rfl
          · exact hfails

/-- A retried operation that makes one call tries it as often as the policy allows. -/
theorem goes_retry {operation : Nat → Task R (Except ε β)} {f : Nat → α → β}
    (hcalls : ∀ m i, CallsOnce s m c read (f i) (operation i)) (policy : RetryPolicy) :
    (retry policy mayPass operation).Goes s m fun calls told _ =>
      ∃ reply, Tries c read mayPass policy.attempts calls reply ∧
        told = reply.map fun r => r.map (f calls.length) := by
  have hattempts : policy.attempts - 1 + 1 = policy.attempts :=
    Nat.sub_add_cancel (Nat.le_max_left _ _)
  refine (goes_attempts hcalls policy.delayMs.toNat (policy.attempts - 1) 0).mono
    fun calls told m₁ h => ?_
  rwa [hattempts, Nat.zero_add] at h

end Task

end DeviceSuite
