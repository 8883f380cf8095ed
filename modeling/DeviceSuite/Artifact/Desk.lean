import DeviceSuite.Artifact.Queue
import DeviceSuite.Store

/-!
# Saving artifacts

A desk takes artifacts for a sink, only so many at a time. A save takes the time that the sink
takes, and leaves its place whether the artifact was kept or refused.
-/

namespace DeviceSuite

/-- A sink behind a queue. The sink refuses artifacts as it is told, one entry for each save, and
otherwise as it sees fit. -/
structure ArtifactDesk (L : Type) where
  queue : PlaceQueue L
  sink : ArtifactSink
  delay : Context → Artifact → Nat
  refusals : List (Option String)

namespace ArtifactDesk

variable {L : Type}

/-- A desk with an empty sink. -/
def new (places : Nat) (delay : Context → Artifact → Nat) (refusals : List (Option String)) :
    ArtifactDesk L :=
  ⟨.ofPlaces places, .empty, delay, refusals⟩

/-- Ask to have an artifact saved. -/
def request (d : ArtifactDesk L) (l : L) : ArtifactDesk L := { d with queue := d.queue.request l }

/-- Put an artifact into the sink. -/
def put (d : ArtifactDesk L) (c : Context) (a : Artifact) :
    ArtifactDesk L × Except ArtifactError SavedArtifact :=
  let kept := { d with refusals := d.refusals.tail }
  match d.refusals.head?.join with
  | some message => (kept, .error (.write message))
  | none => ({ kept with sink := d.sink.save c a }, ArtifactSink.receipt c a)

/-- Put an artifact into the sink and leave. -/
def save [BEq L] (d : ArtifactDesk L) (l : L) (c : Context) (a : Artifact) :
    ArtifactDesk L × Except ArtifactError SavedArtifact :=
  let (d, receipt) := d.put c a
  ({ d with queue := d.queue.leave l }, receipt)

/-- Change the sink. -/
def mapSink (d : ArtifactDesk L) (f : ArtifactSink → ArtifactSink) : ArtifactDesk L :=
  { d with sink := f d.sink }

end ArtifactDesk

end DeviceSuite
