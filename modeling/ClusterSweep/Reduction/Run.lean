import ClusterSweep.Abort
import ClusterSweep.Latency.Percentiles
import ClusterSweep.Latency.Samples
import ClusterSweep.Layout
import ClusterSweep.Space
import ClusterSweep.Throughput.Summary
import ClusterSweep.Throughput.Table

/-!
# Reducing results

Reducing a run (`reduceRun`) reads the latency files of all its clients in client order, builds
the percentile table, reads the execution summaries in client order and computes the
throughput; only then does it write anything: the table to the run's `cdf` file and the
throughput with two places to its `throughput` file.  The first step that fails ends the
reduction with its error, so a run is reduced from files that all read well, and a failure
before the writing leaves the disk as it was.

Reducing a sweep (`reduce`) visits the valid shapes of a space in order, and in each shape's
directory every test: each client count's run is reduced in list order, a success adding a
point to the test's throughput table and a failure being recorded with the client count.  A
test with points gets its table written next to the runs; if that fails the failure is recorded
without a client count and the table is not reported.
-/

namespace ClusterSweep.Reduction

open ClusterSweep.Latency ClusterSweep.Throughput

/-- The samples of the latency files at `paths`, in order. -/
def readSamples (disk : Disk) (paths : List String) : Except ReduceError (List Binary64) :=
  paths.foldlM (fun acc path => do
    let data ← (disk.readFile path).mapError (ReduceError.io path)
    let xs ← parseSamples path data
    pure (acc ++ xs)) []

/-- The execution summaries at `paths`, in order. -/
def readSummaries (disk : Disk) (paths : List String) : Except ReduceError (List Summary) :=
  paths.mapM fun path => do
    let data ← (disk.readFile path).mapError (ReduceError.io path)
    Summary.parse path data

/-- Creates or replaces the file at `path` with a text. -/
def writeText (disk : Disk) (path : String) (text : String) : Except ReduceError Disk :=
  (disk.createFile path text.toUTF8).mapError (ReduceError.io path)

/-- The percentile table and the summaries of a run, read before anything is written. -/
def readRun (disk : Disk) (files : RunFiles) :
    Except ReduceError (PercentileTable × List Summary) := do
  let samples ← readSamples disk files.allLatencies
  let table ← PercentileTable.ofSamples samples
  let summaries ← readSummaries disk files.allSummaries
  pure (table, summaries)

/-- Reduces one run: its throughput or why it has none.  An overflowing sum of operations
stops before anything is written. -/
def reduceRun (files : RunFiles) : Stopping Overflow Disk (Except ReduceError Binary64) := do
  let disk ← get
  match readRun disk files with
  | .error e => pure (.error e)
  | .ok (table, summaries) =>
    match ← MonadExcept.ofExcept (aggregate summaries) with
    | .error e => pure (.error e)
    | .ok x =>
      match writeText disk files.cdf table.text with
      | .error e => pure (.error e)
      | .ok d₁ =>
        set d₁
        match writeText d₁ files.throughput (Binary64.fixedText 2 x ++ "\n") with
        | .error e => pure (.error e)
        | .ok d₂ => do
          set d₂
          pure (.ok x)

/-- The throughput table of one test in one shape's directory. -/
structure ReducedTest where
  /-- The shape's directory. -/
  dir : String
  /-- The test. -/
  test : String
  /-- Throughput by clients. -/
  table : Table
  deriving DecidableEq, Repr

/-- A run, or a test's table, that could not be reduced. -/
structure Failure where
  /-- The shape's directory. -/
  dir : String
  /-- The test. -/
  test : String
  /-- The client count of the run; none when the test's table could not be written. -/
  clients : Option Nat
  /-- Why. -/
  error : ReduceError
  deriving DecidableEq, Repr

/-- Everything a reduction of a sweep produced, in visiting order. -/
structure Report where
  /-- The tables written. -/
  tables : List ReducedTest := []
  /-- The failures. -/
  failures : List Failure := []
  deriving DecidableEq, Repr

/-- Reduces one run and accounts for it: a success adds the run's point to the test's table, a
failure is recorded with the run's client count. -/
def recordRun (acc : Table × Report) (files : RunFiles) :
    Stopping Overflow Disk (Table × Report) := do
  let (table, report) := acc
  match ← reduceRun files with
  | .ok x => pure (table.push files.clients x, report)
  | .error e =>
    let failure : Failure := ⟨files.dir, files.test, some files.clients, e⟩
    pure (table, { report with failures := report.failures ++ [failure] })

/-- Writes the table of a test that has points next to its runs and reports it; a failed write is
recorded without a client count. -/
def finishTest (dir test : String) (table : Table) (report : Report) :
    Stopping Overflow Disk Report :=
  if table.isEmpty then pure report
  else do
    match writeText (← get) (throughputVsClients dir test) table.text with
    | .error e => pure { report with failures := report.failures ++ [⟨dir, test, none, e⟩] }
    | .ok disk => do
      set disk
      pure { report with tables := report.tables ++ [⟨dir, test, table⟩] }

/-- Reduces the runs of one test in directory `dir`, in the order of the client counts, and writes
its table, adding to `report`. -/
def reduceTest (clients : List Nat) (dir test : String) (report : Report) :
    Stopping Overflow Disk Report := do
  let runs := clients.map (RunFiles.mk dir test)
  let (table, report) ← runs.foldlM recordRun (({} : Table), report)
  finishTest dir test table report

/-- Reduces every run of the valid shapes of a space below `root`. -/
def reduce (space : Space) (root : String) : Stopping Overflow Disk Report :=
  let shapes := space.shapes.filter fun s => s.validate.isNone
  shapes.foldlM (fun report shape =>
    let dir := joinPath root shape.dirName
    space.tests.foldlM (fun r test => reduceTest space.clients dir test r) report) {}

end ClusterSweep.Reduction
