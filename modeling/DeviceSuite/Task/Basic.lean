/-!
# Tasks

A task is a computation that goes on in time: it reads the clock and the stop flag, pauses, and
makes calls. It is a tree whose branches are the answers it may get, so what it does is told by
the tree, and what it gets is told by whoever runs it.
-/

namespace DeviceSuite

/-- A computation in time that ends with a value or crashes. `R c` are the replies to a call `c`;
a call without a reply has crashed. -/
inductive Task {C : Type} (R : C → Type) (α : Type) where
  | done (a : α)
  | crash
  /-- Read the clock, in milliseconds. -/
  | clock (next : Nat → Task R α)
  /-- Read the stop flag. -/
  | stopRequested (next : Bool → Task R α)
  /-- Pause, and go on with whether the pause lasted to its end: it ends early when the stop flag
  is raised, and does not even begin when it was raised before. -/
  | pause (ms : Nat) (next : Bool → Task R α)
  /-- Let the others go first. -/
  | giveWay (next : Task R α)
  | call (c : C) (next : Option (R c) → Task R α)

namespace Task

variable {C : Type} {R : C → Type} {α β : Type}

/-- Go on after a task with what it ends with; a crash stays a crash. -/
def bind (t : Task R α) (f : α → Task R β) : Task R β :=
  match t with
  | done a => f a
  | crash => crash
  | clock next => clock fun ms => (next ms).bind f
  | stopRequested next => stopRequested fun b => (next b).bind f
  | pause ms next => pause ms fun full => (next full).bind f
  | giveWay next => giveWay (next.bind f)
  | call c next => call c fun r => (next r).bind f

instance : Monad (Task R) where
  pure := done
  bind := bind

/-- The time. -/
def now : Task R Nat := clock done

/-- Whether the stop flag is raised. -/
def isStopped : Task R Bool := stopRequested done

/-- A pause. -/
def sleep (ms : Nat) : Task R Bool := pause ms done

/-- One turn for the others. -/
def yield : Task R Unit := giveWay (done ())

/-- The reply to a call; a call that crashes takes the task with it. -/
def ask (c : C) : Task R (R c) :=
  call c fun
    | some r => done r
    | none => crash

/-- Do one more thing at the end, whether the task ends well or crashes. -/
def ensuring (t : Task R α) (last : Task R Unit) : Task R α :=
  match t with
  | done a => last.bind fun () => done a
  | crash => last.bind fun () => crash
  | clock next => clock fun ms => (next ms).ensuring last
  | stopRequested next => stopRequested fun b => (next b).ensuring last
  | pause ms next => pause ms fun full => (next full).ensuring last
  | giveWay next => giveWay (next.ensuring last)
  | call c next => call c fun r => (next r).ensuring last

/-- The same task among more kinds of calls. -/
def embed {C' : Type} {R' : C' → Type} (place : C → C') (reply : ∀ c, R' (place c) → R c)
    (t : Task R α) : Task R' α :=
  match t with
  | done a => done a
  | crash => crash
  | clock next => clock fun ms => (next ms).embed place reply
  | stopRequested next => stopRequested fun b => (next b).embed place reply
  | pause ms next => pause ms fun full => (next full).embed place reply
  | giveWay next => giveWay (next.embed place reply)
  | call c next => call (place c) fun r => (next (r.map (reply c))).embed place reply

/-- A task that ends with what it is given is the task before it. -/
theorem bind_done (t : Task R α) : t.bind done = t := by
  induction t with
  | done a => rfl
  | crash => rfl
  | clock next ih => simp only [bind, ih]
  | stopRequested next ih => simp only [bind, ih]
  | pause ms next ih => simp only [bind, ih]
  | giveWay next ih => simp only [bind, ih]
  | call c next ih => simp only [bind, ih]

/-- Tasks can be put one behind the other in any grouping. -/
theorem bind_assoc {γ : Type} (t : Task R α) (f : α → Task R β) (g : β → Task R γ) :
    (t.bind f).bind g = t.bind fun a => (f a).bind g := by
  induction t with
  | done a => rfl
  | crash => rfl
  | clock next ih => simp only [bind, ih]
  | stopRequested next ih => simp only [bind, ih]
  | pause ms next ih => simp only [bind, ih]
  | giveWay next ih => simp only [bind, ih]
  | call c next ih => simp only [bind, ih]

instance : LawfulMonad (Task R) where
  map_const := rfl
  id_map := bind_done
  seqLeft_eq _ _ := by simp only [SeqLeft.seqLeft, Seq.seq, Functor.map, bind_assoc]; rfl
  seqRight_eq _ _ := by
    simp only [SeqRight.seqRight, Seq.seq, Functor.map, bind_assoc]
    exact congrArg _ (funext fun _ => (bind_done _).symm)
  pure_seq _ _ := rfl
  bind_pure_comp _ _ := rfl
  bind_map _ _ := rfl
  pure_bind _ _ := rfl
  bind_assoc := bind_assoc

end Task

end DeviceSuite
