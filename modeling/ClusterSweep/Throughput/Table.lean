import ClusterSweep.Binary64.Fixed

/-!
# Throughput tables

How throughput grows with clients: points `(clients, operations per second)` ordered by clients.
A new point goes after every point with as many clients or fewer, so points with equal client
counts stay in the order they came.  The place is found by a binary search for the partition
point (`partitionPoint`), which is the place meant only while the points stay ordered.  The text
has one line per point, the clients, a space and the throughput with two places in nine columns.
-/

namespace ClusterSweep.Throughput

/-- The halving loop of `partitionPoint` over the window `[base, base + size)`.  Each round asks
about the element at `mid = base + size / 2`: when it satisfies `p` the window moves up to start
at `mid`, and either way it keeps `size - size / 2` elements, so the number of rounds depends on
the length alone. -/
def partitionSearch {α : Type} (p : α → Bool) (xs : List α) (base size : Nat) : Nat :=
  if h : 1 < size then
    let mid := base + size / 2
    partitionSearch p xs (if xs[mid]?.any p then mid else base) (size - size / 2)
  else base
termination_by size
decreasing_by omega

/-- The index of the first element that fails `p`, by binary search: the window shrinks to one
element, which is counted when it satisfies `p`.  The answer is that index only when every
element satisfying `p` comes before every element failing it. -/
def partitionPoint {α : Type} (p : α → Bool) (xs : List α) : Nat :=
  if xs.isEmpty then 0
  else
    let base := partitionSearch p xs 0 xs.length
    if xs[base]?.any p then base + 1 else base

/-- The throughput of one client count. -/
structure Row where
  /-- Concurrent clients. -/
  clients : Nat
  /-- Operations per second. -/
  opsPerSec : Binary64
  deriving DecidableEq, Repr

/-- Throughput rows by increasing client count. -/
structure Table where
  /-- The points. -/
  points : List Row := []
  deriving DecidableEq, Repr

namespace Table

/-- Adds a point at the partition point of the points with as many clients or fewer: after all
of them when the points are ordered. -/
def push (t : Table) (clients : Nat) (ops : Binary64) : Table :=
  let i := partitionPoint (·.clients ≤ clients) t.points
  ⟨t.points.take i ++ ⟨clients, ops⟩ :: t.points.drop i⟩

/-- Whether the table has no point. -/
def isEmpty (t : Table) : Bool := t.points.isEmpty

/-- The table as text, one line per point. -/
def text (t : Table) : String :=
  String.join (t.points.map fun p => toString p.clients ++ " " ++ Binary64.column 9 2 p.opsPerSec ++ "\n")

end Table

end ClusterSweep.Throughput
