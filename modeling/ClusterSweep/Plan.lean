import ClusterSweep.Invocation
import ClusterSweep.Layout
import ClusterSweep.Space
import ClusterSweep.Topology

/-!
# Sweep plans

A sweep is a usable space together with the settings shared by its runs (`RunOptions`).  Its
plan resolves every point in order: a point whose shape breaks a validation rule is skipped
with the violation, and any other point becomes a `RunConfig`, with the clients spread over
processes and threads, the requests of every client, and the directory of its results, the
shape's directory below the output root.  Resolving a point computes its quota, which can
overflow; so the plan is a list of resolutions, each of which may fail.
-/

namespace ClusterSweep

/-- Settings shared by every run of a sweep. -/
structure RunOptions where
  /-- Cluster settings. -/
  cluster : ClusterOptions
  /-- Benchmark client settings. -/
  client : ClientOptions
  /-- How many operations each run executes. -/
  ops : OpsTarget
  /-- Root directory of all results. -/
  outputRoot : String
  deriving DecidableEq, Repr

/-- A point with everything derived from it. -/
structure RunConfig where
  /-- The point. -/
  point : Point
  /-- How the clients are spread over processes and threads. -/
  topology : Topology
  /-- Requests per client and operations in total. -/
  quota : Quota
  /-- Directory the clients write their results to. -/
  outputDir : String
  deriving DecidableEq, Repr

namespace RunConfig

/-- Resolves a point; the quota of a per-client target can overflow. -/
def resolve (point : Point) (ops : OpsTarget) (outputRoot : String) :
    Except Overflow RunConfig := do
  let quota ← ops.quota point.clients
  pure ⟨point, Topology.resolve point.clients, quota, joinPath outputRoot point.shape.dirName⟩

/-- The invocation of the cluster runner for a resolved point. -/
def invocation (c : RunConfig) (cluster : ClusterOptions) (client : ClientOptions) :
    Invocation :=
  let shape := c.point.shape
  { servers := shape.servers
    replicas := shape.replicas
    clientProcesses := c.topology.processes
    cluster := cluster
    client :=
      { binary := client.binary
        test := c.point.test
        valueSize := shape.valueSize
        lrangeLen := client.lrangeLen
        keySpaceLen := shape.keySpaceLen
        serverSpan := shape.serverSpan
        threads := c.topology.threadsPerProcess
        requests := c.quota.perClientRequests
        timeLimit := client.timeLimit
        outputDir := c.outputDir } }

end RunConfig

/-- What the plan does with one point. -/
inductive Planned where
  /-- The point breaks a validation rule and is skipped. -/
  | skip (point : Point) (violation : Violation)
  /-- The point is run as configured. -/
  | run (config : RunConfig)
  deriving DecidableEq, Repr

/-- A sweep: a space with no empty dimension and the shared run settings. -/
structure Sweep where
  /-- The points. -/
  space : Space
  /-- The shared run settings. -/
  options : RunOptions
  deriving DecidableEq, Repr

namespace Sweep

/-- A sweep over `space`, which must have no empty dimension. -/
def new (space : Space) (options : RunOptions) : Except ConfigError Sweep := do
  space.validate
  pure ⟨space, options⟩

/-- What the plan does with one point. -/
def planPoint (sw : Sweep) (p : Point) : Except Overflow Planned :=
  match p.shape.validate with
  | some v => pure (.skip p v)
  | none => .run <$> RunConfig.resolve p sw.options.ops sw.options.outputRoot

/-- The plan of every point, in sweep order. -/
def plan (sw : Sweep) : List (Except Overflow Planned) := sw.space.points.map sw.planPoint

end Sweep

end ClusterSweep
