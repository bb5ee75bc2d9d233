import ClusterSweep.Checked

/-!
# Operation targets and request quotas

A sweep runs either a fixed number of operations per run, shared by its clients, or a fixed
number per client.  `OpsTarget.quota` turns the target into the requests each client issues and
the operations the whole run is expected to execute.  A shared total is divided with the
remainder dropped, so the run executes fewer than `c` operations less than the total it
reports; a per-client target multiplies, and a product past 64 bits is an overflow.
-/

namespace ClusterSweep

/-- Why the settings do not describe a sweep. -/
inductive ConfigError where
  /-- Neither an operation total nor a per-client count is set. -/
  | missingOpsTarget
  /-- Both an operation total and a per-client count are set. -/
  | conflictingOpsTarget
  /-- A sweep dimension has no values. -/
  | emptyDimension (name : String)
  deriving DecidableEq, Repr

/-- The text that reports a settings error. -/
def ConfigError.message : ConfigError → String
  | .missingOpsTarget => "one of `total_ops` or `per_client_ops` must be set"
  | .conflictingOpsTarget => "`total_ops` and `per_client_ops` are mutually exclusive"
  | .emptyDimension name => "sweep dimension `" ++ name ++ "` must have at least one value"

/-- How many operations each sweep point executes. -/
inductive OpsTarget where
  /-- A number of operations shared by all clients of a run. -/
  | total (ops : Nat)
  /-- A number of operations for every client. -/
  | perClient (ops : Nat)
  deriving DecidableEq, Repr

/-- The requests of one sweep point. -/
structure Quota where
  /-- Requests each client thread issues. -/
  perClientRequests : Nat
  /-- Operations the run is expected to execute in total. -/
  grandTotalOps : Nat
  deriving DecidableEq, Repr

namespace OpsTarget

/-- The target given by two settings of which exactly one must be present. -/
def ofOptions : Option Nat → Option Nat → Except ConfigError OpsTarget
  | some t, none => .ok (.total t)
  | none, some p => .ok (.perClient p)
  | some _, some _ => .error .conflictingOpsTarget
  | none, none => .error .missingOpsTarget

/-- The quota of a run with `clients` concurrent clients. -/
def quota (target : OpsTarget) (clients : Nat) : Except Overflow Quota :=
  match target with
  | .total t => .ok ⟨t / clients, t⟩
  | .perClient p => do
    let grand ← checkedMul u64Max p clients
    pure ⟨p, grand⟩

end OpsTarget

end ClusterSweep
