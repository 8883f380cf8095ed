/-!
# A queue with places

Those who want in wait in the order of their requests; as many as there are places are inside.
A place that is left goes to the first who waits.
-/

namespace DeviceSuite

/-- Who is inside and who waits. -/
structure PlaceQueue (L : Type) where
  capacity : Nat
  inside : List L
  waiting : List L

namespace PlaceQueue

variable {L : Type}

/-- A queue with so many places, or with one if that is none. -/
def ofPlaces (places : Nat) : PlaceQueue L := ⟨max 1 places, [], []⟩

/-- Let in as many as there are free places for. -/
def letIn (q : PlaceQueue L) : PlaceQueue L :=
  let free := q.capacity - q.inside.length
  { q with inside := q.inside ++ q.waiting.take free, waiting := q.waiting.drop free }

/-- Ask to be let in. -/
def request (q : PlaceQueue L) (l : L) : PlaceQueue L :=
  letIn { q with waiting := q.waiting ++ [l] }

/-- Leave a place. -/
def leave [BEq L] (q : PlaceQueue L) (l : L) : PlaceQueue L :=
  letIn { q with inside := q.inside.erase l }

/-- Whether somebody is inside. -/
def admits [BEq L] (q : PlaceQueue L) (l : L) : Bool := q.inside.contains l

end PlaceQueue

end DeviceSuite
