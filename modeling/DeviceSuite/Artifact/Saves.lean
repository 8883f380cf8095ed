import DeviceSuite.Artifact.Desk
import DeviceSuite.Task.Pool

/-!
# Saves at a desk

Many artifacts are brought to a desk at once, each by a task of its own, and all are saved in
time. Who goes in and out, and when, is written down.
-/

namespace DeviceSuite

/-- A desk with a clock and a log of those who go in, told by `true`, and out, by their number. -/
structure Saves where
  now : Nat
  desk : ArtifactDesk Nat
  log : List (Nat × Nat × Bool)

namespace Saves

/-- An artifact to be saved, and the time that the sink takes for it. -/
structure Save where
  context : Context
  artifact : Artifact
  duration : Nat

/-- The reply to a request to save. -/
abbrev Reply : Save → Type := fun _ => Except ArtifactError SavedArtifact

/-- What became of a save. -/
abbrev Receipt := Except ArtifactError SavedArtifact

/-- The desk as a host of the tasks that bring artifacts. -/
def host : Host Reply Receipt Nat Saves where
  now := now
  atTime time r := { r with now := time }
  isStopped _ _ := false
  announce r l _ := { r with desk := r.desk.request l }
  admits r l _ := r.desk.queue.admits l
  accept r l save := ({ r with log := r.log ++ [(r.now, l, true)] }, save.duration)
  answer r l save :=
    let (desk, receipt) := r.desk.save l save.context save.artifact
    ({ r with desk := desk, log := r.log ++ [(r.now, l, false)] }, some receipt)
  finish r _ _ := r

/-- Bring all artifacts at once, in their order, numbered from zero. -/
def begin (desk : ArtifactDesk Nat) (saves : List Save) : Pool Reply Receipt Nat Saves :=
  saves.zipIdx.foldl (fun p (save, number) => p.spawn host number (.ready (.ask save)))
    (.empty ⟨0, desk, []⟩)

/-- Bring all artifacts at once and save them all; the desk knows how long each takes. -/
def saveAll (desk : ArtifactDesk Nat) (artifacts : List (Context × Artifact)) :
    Pool Reply Receipt Nat Saves :=
  let saves := artifacts.map fun (c, a) => { context := c, artifact := a, duration := desk.delay c a }
  (begin desk saves).run host none fun _ => false

/-- The instants at which a save went in and out. -/
def span? (r : Saves) (number : Nat) : Option (Nat × Nat) := do
  let entry ← r.log.find? fun e => e.2 == (number, true)
  let exit ← r.log.find? fun e => e.2 == (number, false)
  return (entry.1, exit.1)

/-- How many were inside after each entry of a log, and after all of them. -/
def tally (log : List (Nat × Nat × Bool)) : List Nat × Nat :=
  log.foldl (fun (counts, inside) e =>
    let inside := if e.2.2 then inside + 1 else inside - 1
    (counts ++ [inside], inside)) ([], 0)

/-- How many were inside after each entry of the log. -/
def occupancy (r : Saves) : List Nat := (tally r.log).1

/-- The most that were inside at once. -/
def peak (r : Saves) : Nat := r.occupancy.foldl max 0

end Saves

end DeviceSuite
