import ClusterSweep.Binary64.Fixed
import ClusterSweep.Binary64.Round
import ClusterSweep.Execution
import ClusterSweep.Layout
import ClusterSweep.Text.Quoted

/-!
# A simulated cluster

`Runner.recording` stands in for a cluster: it records every invocation it is handed, fails the
runs whose client count is in a given set, and otherwise, if asked to, writes the result files a
real cluster would.  For a run of `N` clients and `R` requests per client, client `i` gets a
latency file with the samples `k + i` for `k = 1 … R`, one per line as whole numbers, and an
execution summary `totalTime 1.00` with `totalOps R`.  A result file that cannot be written
stops the program.
-/

namespace ClusterSweep

/-- The name of a file error's kind, as a failed write reports it. -/
def IoError.kindName : IoError → String
  | .notFound => "NotFound"
  | .notADirectory => "NotADirectory"
  | .isADirectory => "IsADirectory"
  | .alreadyExists => "AlreadyExists"
  | .permissionDenied => "PermissionDenied"
  | .invalidUtf8 => "InvalidData"
  | .nulByte | .nulInName => "InvalidInput"
  | .nameTooLong => "InvalidFilename"

/-- The code and description of a file error that the operating system reported; the others are
found before the system is asked. -/
def IoError.osCode? : IoError → Option (Nat × String)
  | .notFound => some (2, "No such file or directory")
  | .notADirectory => some (20, "Not a directory")
  | .isADirectory => some (21, "Is a directory")
  | .alreadyExists => some (17, "File exists")
  | .permissionDenied => some (13, "Permission denied")
  | .nameTooLong => some (36, "File name too long")
  | .invalidUtf8 | .nulByte | .nulInName => none

/-- A file error as a failed write shows it in full: the system's code, kind and description,
or the kind and message of an error found before the system was asked. -/
def IoError.detail (e : IoError) : String :=
  match e.osCode? with
  | some (code, text) =>
    "Os " ++ Text.openBrace ++ " code: " ++ toString code ++ ", kind: " ++ e.kindName ++
      ", message: \"" ++ text ++ "\" " ++ Text.closeBrace
  | none =>
    "Error " ++ Text.openBrace ++ " kind: " ++ e.kindName ++ ", message: \"" ++ e.message ++
      "\" " ++ Text.closeBrace

/-- The stop of a result file that cannot be written. -/
def IoError.unwrapAbort (e : IoError) : Abort :=
  ⟨"called `Result::unwrap()` on an `Err` value: " ++ e.detail,
    "perfsweep-test/src/fixtures.rs:21:35"⟩

namespace Simulation

/-- A latency file holding `samples`, one per line, each in its shortest text. -/
def samplesText (samples : List Binary64) : String :=
  String.join (samples.map fun x => Binary64.plainText x ++ "\n")

/-- The latency file of client `index` of a run with `requests` requests per client: the samples
`k + index` for `k = 1 … requests`. -/
def latencyText (index requests : Nat) : String :=
  samplesText ((List.range requests).map fun k => Binary64.ofNat (k + 1 + index))

/-- The execution summary of a client that ran `time` seconds and `ops` operations. -/
def summaryText (time : Binary64) (ops : Nat) : String :=
  "totalTime " ++ Binary64.fixedText 2 time ++ "\ntotalOps " ++ toString ops ++ "\n"

/-- Writes a file of the simulated results, stopping the program when that fails. -/
def writeResult {σ : Type} (path text : String) : Stopping Abort (Disk × σ) Unit := do
  let (disk, own) ← get
  match disk.createFile path text.toUTF8 with
  | .ok disk => set (disk, own)
  | .error e => throw e.unwrapAbort

/-- Writes the result files of every client of a run. -/
def writeRun {σ : Type} (dir test : String) (clients requests : Nat) :
    Stopping Abort (Disk × σ) Unit :=
  let files : RunFiles := ⟨dir, test, clients⟩
  files.indices.forM fun i => do
    writeResult (files.latencies i) (latencyText i requests)
    writeResult (files.summary i) (summaryText Binary64.one requests)

end Simulation

/-- Records every invocation; fails runs with a client count in `failFor`; writes result files
when `withResults` holds. -/
def Runner.recording (failFor : List Nat) (withResults : Bool) : Runner (List Invocation) :=
  ⟨fun inv => do
    modify fun (disk, seen) => (disk, seen ++ [inv])
    let clients := inv.clientProcesses * inv.client.threads
    if failFor.contains clients then
      pure (.error (.other ("simulated failure with " ++ toString clients ++ " clients")))
    else if withResults then do
      Simulation.writeRun inv.client.outputDir inv.client.test clients inv.client.requests
      pure (.ok ())
    else pure (.ok ())⟩

end ClusterSweep
