import Microbench.Number.Whole
import Microbench.Task.Declaration

/-!
# Seats

Where threads and groups stand in the layout of a trial.

## Main definitions

* `GroupSeat`, `Seat` — the place of a group and of a thread.
* `Seat.layout` — all seats, the threads of a group next to each other.
-/

namespace Microbench

/-- The place of a thread group. -/
structure GroupSeat where
  /-- Its index among the groups. -/
  index : Nat
  /-- Its name. -/
  name : String
  /-- How many threads it has. -/
  threads : UInt32
  deriving DecidableEq, Repr, Inhabited

/-- The place of a thread. -/
structure Seat where
  /-- Its index among all threads. -/
  index : Nat
  /-- The number of all threads. -/
  total : Nat
  /-- The index of its group. -/
  groupIndex : Nat
  /-- The name of its group. -/
  groupName : String
  /-- Its index within the group. -/
  indexInGroup : Nat
  /-- How many threads the group has. -/
  groupThreads : UInt32
  deriving DecidableEq, Repr, Inhabited

/-- The number of threads in all groups. -/
def totalThreads (groups : List Group) : Nat := Whole.total (groups.map fun g => g.threads.toNat)

/-- The places of the groups. -/
def GroupSeat.layout (groups : List Group) : List GroupSeat :=
  groups.mapIdx fun index g => ⟨index, g.name, g.threads⟩

/-- The seats of groups from the one at `groupIndex` on, the first of them having `index`. -/
def Seat.layoutFrom (total : Nat) : Nat → Nat → List Group → List Seat
  | _, _, [] => []
  | index, groupIndex, g :: rest =>
    (List.range g.threads.toNat).map (fun k =>
      ⟨index + k, total, groupIndex, g.name, k, g.threads⟩) ++
    layoutFrom total (index + g.threads.toNat) (groupIndex + 1) rest

/-- All seats, group by group. -/
def Seat.layout (groups : List Group) : List Seat :=
  layoutFrom (totalThreads groups) 0 0 groups

end Microbench
