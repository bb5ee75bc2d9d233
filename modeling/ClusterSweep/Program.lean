import ClusterSweep.CommandLine.Arguments
import ClusterSweep.Report

/-!
# The program

A run of the program reads its command line, and for `version` only prints the version.
Otherwise it loads the configuration from the defaults, the file named by `-c`, the `PS__`
environment variables and the options.  `reduce` then reduces the results of the configured
space below the output directory and prints the reduction.  `sweep` and `run` check that the
configuration describes a sweep, run it on the configured runner — `--dry-run` makes that the
dry runner — and print its report; `run` then reduces and prints the reduction as well.  The
programs a command runner starts write on the program's standard output and standard error,
ahead of the report.

Failed and skipped runs and incomplete results are reported on the standard output and do not
fail the program.  A configuration that cannot be loaded, or that does not describe a sweep,
fails it with status 1 and the error on the standard error:

    error: failed to load configuration

    Caused by:
        CAUSE

A bad command line fails with status 1 as well, and help succeeds.  A stop (`Abort`) ends the
program with status 101 and a report of the stop on the standard error; what was printed and
written before it stays.
-/

namespace ClusterSweep

open ClusterSweep.CommandLine ClusterSweep.Settings ClusterSweep.Reduction

/-- The version of the program. -/
def programVersion : String := "0.1.0"

/-- What a run of the program acts on: the disk, and its standard output and standard error
so far, which the programs it starts write on too. -/
structure World where
  /-- The files and directories. -/
  disk : Disk
  /-- The standard output so far. -/
  out : String := ""
  /-- The standard error so far. -/
  err : String := ""

/-- What a run of the program leaves behind. -/
structure Exit where
  /-- The exit status. -/
  status : Nat
  /-- The standard output. -/
  stdout : String
  /-- The standard error. -/
  stderr : String
  /-- The files and directories. -/
  disk : Disk

namespace World

/-- A step on the disk that may stop. -/
def onDisk {α : Type} (m : Stopping Abort Disk α) : Stopping Abort World α :=
  m.focus (·.disk) fun w d => { w with disk := d }

/-- A sweep step on the disk, with a runner without a state of its own. -/
def onRunner {α : Type} (m : Stopping Abort (Disk × Unit) α) : Stopping Abort World α :=
  m.focus (fun w => (w.disk, ())) fun w s => { w with disk := s.1 }

/-- A sweep step on the disk, with a runner whose programs write on the console. -/
def onConsole {α : Type} (m : Stopping Abort (Disk × Console) α) : Stopping Abort World α :=
  m.focus (fun w => (w.disk, { out := w.out, err := w.err }))
    fun w s => { w with disk := s.1, out := s.2.out, err := s.2.err }

/-- Printing on the standard output. -/
def onOut {α : Type} (m : Stopping Abort String α) : Stopping Abort World α :=
  m.focus (·.out) fun w t => { w with out := t }

end World

/-- An error with its context, as the standard error shows it: the context, then the cause
with every line indented by four blanks. -/
def causedBy (context cause : String) : String :=
  context ++ "\n\nCaused by:\n    " ++ "\n    ".intercalate (cause.splitOn "\n")

/-- Reduces the results of `space` below `root` and prints the reduction; an overflowing sum
of operations stops the program. -/
def reduceAndPrint (space : Space) (root : String) : Stopping Abort World Unit := do
  let report ← World.onDisk (ExceptT.adapt (Overflow.abortAt Site.operationSum) (reduce space root))
  World.onOut (Report.printReduce report)

/-- Runs a sweep on the configured runner and prints its report. -/
def sweepAndPrint (sw : Sweep) (runner : Settings.Runner) : Stopping Abort World Unit := do
  let report ← match runner with
    | .dryRun => World.onRunner (sw.run Runner.dryRun)
    | .command program grace => World.onConsole (sw.run (Runner.command program grace))
  World.onOut (Report.printSweep report)

/-- Does what subcommand `cmd` asks with the options `args` and the environment `env`: an
error for the standard error, or nothing. -/
def execute (args : Arguments) (cmd : Subcommand) (env : List (String × String)) :
    Stopping Abort World (Except String Unit) := do
  if cmd = .version then
    World.onOut (Report.emit (programVersion ++ "\n"))
    return .ok ()
  let disk := (← get).disk
  match ← MonadExcept.ofExcept (Config.load disk args.config env args.overrides) with
  | .error cause => pure (.error (causedBy "failed to load configuration" cause))
  | .ok config =>
    if cmd = .reduce then
      match config.space with
      | .error e => pure (.error (causedBy "invalid sweep configuration" e.message))
      | .ok space => do
        reduceAndPrint space config.outputDir
        pure (.ok ())
    else
      match config.toSweep with
      | .error e => pure (.error (causedBy "invalid sweep configuration" e.message))
      | .ok sw => do
        sweepAndPrint sw config.runner
        if cmd = .run then reduceAndPrint sw.space config.outputDir
        pure (.ok ())

/-- How the standard error reports a stop. -/
def Abort.report (a : Abort) : String :=
  "thread 'main' panicked at " ++ a.site ++ ":\n" ++ a.message ++
    "\nnote: run with `RUST_BACKTRACE=1` environment variable to display a backtrace\n"

/-- Runs the program with the arguments `argv`, without the program's name, in the
environment `env` on `disk`. -/
def runProgram (argv : List String) (env : List (String × String)) (disk : Disk) : Exit :=
  match readArguments argv with
  | .error (.help text) => ⟨0, text ++ "\n", "", disk⟩
  | .error (.error text) =>
    ⟨1, "", text ++ "\nRun " ++ programName ++ " --help for more information.\n", disk⟩
  | .ok (args, cmd) =>
    let (result, w) := (execute args cmd env).runFrom { disk }
    match result with
    | .ok (.ok ()) => ⟨0, w.out, w.err, w.disk⟩
    | .ok (.error e) => ⟨1, w.out, w.err ++ "error: " ++ e ++ "\n", w.disk⟩
    | .error a => ⟨101, w.out, w.err ++ a.report, w.disk⟩

end ClusterSweep
