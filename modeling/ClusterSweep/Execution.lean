import ClusterSweep.Abort
import ClusterSweep.Host
import ClusterSweep.Plan

/-!
# Running a sweep

`Sweep.run` visits the plan in order.  A skipped point is reported with its violation.  For
any other point the output directory is created with its parents, and a failure to do so fails
the point; then the runner is handed the point's invocation and its answer is the point's
outcome.  Neither a skipped nor a failed point stops the sweep; only an `Abort` does, such as
the quota of a point overflowing.

A runner (`Runner`) acts on the disk and on a state of its own.  Two runners are defined here:
`Runner.dryRun`, which completes every run, and `Runner.command`, which starts a program with
the cluster arguments followed by `--client` and the client command line (see `Host.start`): a
program that cannot be started fails the run with the reason, and one that exits with a status
other than zero fails it with the status.
-/

namespace ClusterSweep

/-- Why a run of a point did not complete. -/
inductive InvocationError where
  /-- The output directory at `path` could not be created. -/
  | outputDir (path : String) (cause : IoError)
  /-- The runner program could not be started. -/
  | spawn (cause : IoError)
  /-- The runner program exited with a status other than zero. -/
  | failed (status : Nat)
  /-- The runner reported an error in words. -/
  | other (reason : String)
  deriving DecidableEq, Repr

/-- The text that reports a failed run. -/
def InvocationError.message : InvocationError → String
  | .outputDir path cause => "failed to create output directory `" ++ path ++ "`: " ++ cause.message
  | .spawn cause => "failed to spawn cluster runner: " ++ cause.message
  | .failed status => "cluster runner failed: exit status: " ++ toString status
  | .other reason => "cluster runner error: " ++ reason

/-- What happened to one point. -/
inductive Outcome where
  /-- The run completed. -/
  | completed
  /-- The point broke a validation rule and was not run. -/
  | skipped (violation : Violation)
  /-- The run did not complete. -/
  | failed (error : InvocationError)
  deriving DecidableEq, Repr

/-- Every visited point of a sweep with its outcome, in sweep order. -/
structure SweepReport where
  /-- The points and their outcomes. -/
  outcomes : List (Point × Outcome) := []
  deriving DecidableEq, Repr

namespace SweepReport

/-- The number of completed runs. -/
def completed (r : SweepReport) : Nat := r.outcomes.countP fun (_, o) => o matches .completed

/-- The number of skipped points. -/
def skipped (r : SweepReport) : Nat := r.outcomes.countP fun (_, o) => o matches .skipped _

/-- The number of failed runs. -/
def failed (r : SweepReport) : Nat := r.outcomes.countP fun (_, o) => o matches .failed _

end SweepReport

/-- Something that executes invocations, acting on the disk and on a state of type `σ`. -/
structure Runner (σ : Type) where
  /-- Executes one invocation. -/
  run : Invocation → Stopping Abort (Disk × σ) (Except InvocationError Unit)

namespace Runner

/-- Completes every run without doing anything. -/
def dryRun : Runner Unit := ⟨fun _ => pure (.ok ())⟩

/-- Starts `program` for every run with the cluster arguments, `--client` and the client
command line; what the program writes goes to the console.  Once the program has started, the
run's timeout plus `grace` must be a duration, or the program stops. -/
def command (program : String) (grace : Duration) : Runner Console := ⟨fun inv => do
  let args ← MonadExcept.ofExcept (inv.clusterArgs.mapError (Overflow.abortAt Site.wholeSecs))
  let line ← MonadExcept.ofExcept
    (inv.client.commandLine.mapError (Overflow.abortAt Site.wholeSecs))
  let (disk, console) ← get
  match Host.start disk program (args ++ ["--client", line]) with
  | .error e => pure (.error (.spawn e))
  | .ok r =>
    if (inv.cluster.timeout.add? grace).isNone then
      throw ⟨"overflow when adding durations", Site.durationSum⟩
    set (disk, console.record r)
    if r.status == 0 then pure (.ok ()) else pure (.error (.failed r.status))⟩

end Runner

namespace Sweep

/-- Runs one resolved point: creates its output directory, then hands the runner its
invocation. -/
def runConfig {σ : Type} (sw : Sweep) (runner : Runner σ) (rc : RunConfig) :
    Stopping Abort (Disk × σ) Outcome := do
  let (disk, own) ← get
  let (disk, failure) := disk.createDirAll rc.outputDir
  set (disk, own)
  match failure with
  | some e => pure (.failed (.outputDir rc.outputDir e))
  | none => do
    match ← runner.run (rc.invocation sw.options.cluster sw.options.client) with
    | .ok () => pure .completed
    | .error e => pure (.failed e)

/-- Visits one point. -/
def visit {σ : Type} (sw : Sweep) (runner : Runner σ) (p : Point) :
    Stopping Abort (Disk × σ) (Point × Outcome) := do
  match ← MonadExcept.ofExcept ((sw.planPoint p).mapError (Overflow.abortAt Site.quota)) with
  | .skip pt v => pure (pt, .skipped v)
  | .run rc => do
    let o ← sw.runConfig runner rc
    pure (rc.point, o)

/-- Runs every point of the sweep in order. -/
def run {σ : Type} (sw : Sweep) (runner : Runner σ) : Stopping Abort (Disk × σ) SweepReport := do
  let outcomes ← sw.space.points.mapM (sw.visit runner)
  pure ⟨outcomes⟩

end Sweep

end ClusterSweep
