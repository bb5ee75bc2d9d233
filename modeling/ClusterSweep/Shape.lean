import ClusterSweep.Checked

/-!
# Cluster shapes

A shape fixes the numeric parameters of a cluster run: servers, backup replicas, the servers a
workload is spread over, value size and key space.  Its directory name lists the five numbers,
so every shape has its own directory.  A shape is run only when it passes the validation rules,
checked in order: the servers must outnumber the replicas, and the span must not exceed the
servers.  `Shape.validate` reports the first rule that fails.
-/

namespace ClusterSweep

/-- The numeric parameters of one cluster run. -/
structure Shape where
  /-- Storage servers. -/
  servers : Nat
  /-- Backup replicas per segment. -/
  replicas : Nat
  /-- Servers the workload is spread over. -/
  serverSpan : Nat
  /-- Size of written values in bytes. -/
  valueSize : Nat
  /-- Number of distinct keys. -/
  keySpaceLen : Nat
  deriving DecidableEq, Repr

/-- A validation rule that a shape breaks. -/
inductive Violation where
  /-- The servers cannot hold the replicas. -/
  | insufficientServers (servers replicas : Nat)
  /-- The span is larger than the cluster. -/
  | spanExceedsServers (span servers : Nat)
  deriving DecidableEq, Repr

/-- The text that reports a violation.  It names the least server count that would do,
`replicas + 1`, a 32-bit sum that overflows for the largest replica count. -/
def Violation.message : Violation → Except Overflow String
  | .insufficientServers servers replicas => do
    let needed ← checkedAdd u32Max replicas 1
    pure (toString servers ++ " servers cannot hold " ++ toString replicas ++
      " replicas (need at least " ++ toString needed ++ ")")
  | .spanExceedsServers span servers =>
    pure ("server span " ++ toString span ++ " exceeds the " ++ toString servers ++
      " available servers")

namespace Shape

/-- The name of the shape's result directory. -/
def dirName (s : Shape) : String :=
  "servers" ++ toString s.servers ++ "_replicas" ++ toString s.replicas ++
    "_span" ++ toString s.serverSpan ++ "_value" ++ toString s.valueSize ++
    "_keys" ++ toString s.keySpaceLen

/-- The servers must outnumber the replicas. -/
def enoughServers (s : Shape) : Option Violation :=
  if s.servers ≤ s.replicas then some (.insufficientServers s.servers s.replicas) else none

/-- The span must not exceed the servers. -/
def spanWithinServers (s : Shape) : Option Violation :=
  if s.servers < s.serverSpan then some (.spanExceedsServers s.serverSpan s.servers) else none

/-- The validation rules, in the order they are checked. -/
def rules : List (Shape → Option Violation) := [enoughServers, spanWithinServers]

/-- The first rule the shape breaks, if any. -/
def validate (s : Shape) : Option Violation := rules.findSome? (· s)

/-- A shape is valid exactly when the servers outnumber the replicas and cover the span. -/
theorem validate_eq_none_iff (s : Shape) :
    s.validate = none ↔ s.replicas < s.servers ∧ s.serverSpan ≤ s.servers := by
  unfold validate rules enoughServers spanWithinServers
  by_cases h₁ : s.servers ≤ s.replicas <;> by_cases h₂ : s.servers < s.serverSpan <;>
    simp [List.findSome?, h₁, h₂]
  -- only the shape that breaks neither rule is left
  omega

end Shape

end ClusterSweep
