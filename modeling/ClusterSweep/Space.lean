import ClusterSweep.Quota
import ClusterSweep.Shape

/-!
# Sweep spaces

A sweep space lists the values of every dimension of a sweep: servers, replicas, server span,
value size, key space, test and clients.  Its points are every combination, the first dimension
outermost and the clients innermost, so the points of one shape are next to each other and
within a shape the points of one test are.  Repeated values give repeated points.

A space is usable when no dimension is empty; `Space.validate` names the first empty dimension
in the order above.  The number of points is the product of the dimensions' sizes, computed
left to right in 64-bit words (`Space.len`), so a space too large to count is an overflow.
-/

namespace ClusterSweep

/-- The values of every dimension of a sweep. -/
structure Space where
  /-- Numbers of storage servers. -/
  servers : List Nat := [4]
  /-- Numbers of backup replicas per segment. -/
  replicas : List Nat := [3]
  /-- Numbers of servers the workload is spread over. -/
  serverSpan : List Nat := [1]
  /-- Value sizes in bytes. -/
  valueSize : List Nat := [3]
  /-- Sizes of the key space. -/
  keySpaceLen : List Nat := [1]
  /-- Names of the tests. -/
  tests : List String := []
  /-- Numbers of concurrent clients, none of them zero. -/
  clients : List Nat := []
  deriving DecidableEq, Repr

/-- One combination of the sweep dimensions. -/
structure Point where
  /-- The numeric cluster parameters. -/
  shape : Shape
  /-- The test to run. -/
  test : String
  /-- The number of concurrent clients. -/
  clients : Nat
  deriving DecidableEq, Repr

/-- A point as `test clients=N (directory)`. -/
def Point.display (p : Point) : String :=
  p.test ++ " clients=" ++ toString p.clients ++ " (" ++ p.shape.dirName ++ ")"

namespace Space

/-- The sizes of the dimensions with their names, in the order they are checked and
multiplied. -/
def sizes (s : Space) : List (String × Nat) :=
  [("servers", s.servers.length), ("replicas", s.replicas.length),
    ("server_span", s.serverSpan.length), ("value_size", s.valueSize.length),
    ("key_space_len", s.keySpaceLen.length), ("tests", s.tests.length),
    ("clients", s.clients.length)]

/-- The first empty dimension, as a settings error. -/
def validate (s : Space) : Except ConfigError Unit :=
  match s.sizes.find? (·.2 == 0) with
  | some (name, _) => .error (.emptyDimension name)
  | none => .ok ()

/-- The number of points, multiplied left to right in 64-bit words. -/
def len (s : Space) : Except Overflow Nat :=
  s.sizes.foldlM (fun acc (_, n) => checkedMul u64Max acc n) 1

/-- Whether the space has no points; it counts them, so it overflows where `len` does. -/
def isEmpty (s : Space) : Except Overflow Bool := (· == 0) <$> s.len

/-- Every combination of the numeric dimensions, servers outermost. -/
def shapes (s : Space) : List Shape :=
  s.servers.flatMap fun servers =>
  s.replicas.flatMap fun replicas =>
  s.serverSpan.flatMap fun serverSpan =>
  s.valueSize.flatMap fun valueSize =>
  s.keySpaceLen.map fun keySpaceLen =>
    ⟨servers, replicas, serverSpan, valueSize, keySpaceLen⟩

/-- Every point, shapes outermost, then tests, then clients. -/
def points (s : Space) : List Point :=
  s.shapes.flatMap fun shape =>
  s.tests.flatMap fun test =>
  s.clients.map fun clients => ⟨shape, test, clients⟩

end Space

end ClusterSweep
