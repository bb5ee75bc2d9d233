import ClusterSweep.CommandLine.Scan
import ClusterSweep.Settings.Load
import ClusterSweep.Text.Blank
import ClusterSweep.Text.Integer
import ClusterSweep.Text.Quoted

/-!
# The command line of `perfsweep`

    perfsweep [OPTIONS] (run | sweep | reduce | version)

Every option overrides one setting of the configuration (`Overrides`), except `-c`, which names
the configuration file.  Each option may be given once; a second use is an error even when its
value is bad.  Numbers are decimal, with an optional `+`; a list is a comma-separated text whose
items are trimmed of blanks, empty items being dropped, and a bad item is reported quoted.
Client counts must not be zero.  Server log levels are matched without regard to the case of
ASCII letters.

The subcommands take no arguments of their own: `run` sweeps and then reduces, `sweep` only
sweeps, `reduce` only reduces earlier results, and `version` prints the version.
-/

namespace ClusterSweep.CommandLine

open ClusterSweep.Settings

/-- What the program is asked to do. -/
inductive Subcommand where
  /-- Sweep, then reduce the results. -/
  | run
  /-- Sweep without reducing. -/
  | sweep
  /-- Reduce the results of an earlier sweep. -/
  | reduce
  /-- Print the version. -/
  | version
  deriving DecidableEq, Repr

/-- The options of the command line. -/
structure Arguments where
  /-- The configuration file. -/
  config : Option String := none
  /-- The settings the options override. -/
  overrides : Overrides := {}
  deriving Repr

/-- An unsigned decimal number of `bits` bits. -/
def unsigned (bits : Nat) (s : String) : Except String Nat :=
  (Text.readUnsigned bits s).mapError Text.IntError.message

/-- A client count: a 32-bit number other than zero. -/
def clientCount (s : String) : Except String Nat := do
  let n ← unsigned 32 s
  if n = 0 then throw "number would be zero for non-zero type" else pure n

/-- A comma-separated list: items trimmed, empty ones dropped, each read by `item`. -/
def listOf {β : Type} (item : String → Except String β) (s : String) : Except String (List β) :=
  ((s.splitOn ",").map Text.trim |>.filter (!·.isEmpty)).mapM fun x =>
    (item x).mapError fun e => "invalid list item " ++ Text.quoted x ++ ": " ++ e

/-- A server log level by its name, in any case of ASCII letters. -/
def serverLogLevel (s : String) : Except String ServerLogLevel :=
  match ServerLogLevel.ofName? (s.map Char.toUpper) with
  | some l => pure l
  | none => throw ("unknown server log level " ++ Text.quoted s)

/-- An option with a value that may be given once: `get` tells whether it was, `put` records
the value read by `read`. -/
def once {β : Type} (name : String) (short : Option Char) (description : String)
    (get : Arguments → Option β) (put : Arguments → β → Arguments)
    (read : String → Except String β) : Flag Arguments :=
  ⟨name, short, description, .value fun a v =>
    if (get a).isSome then throw "duplicate values provided" else put a <$> read v⟩

/-- An option with a value that overrides a setting. -/
def setting {β : Type} (name : String) (short : Option Char) (description : String)
    (get : Overrides → Option β) (put : Overrides → β → Overrides)
    (read : String → Except String β) : Flag Arguments :=
  once name short description (fun a => get a.overrides)
    (fun a x => { a with overrides := put a.overrides x }) read

/-- A switch that turns a setting on. -/
def switch (name : String) (short : Option Char) (description : String)
    (put : Overrides → Overrides) : Flag Arguments :=
  ⟨name, short, description, .switch fun a => { a with overrides := put a.overrides }⟩

/-- The options, in the order the help text lists them. -/
def flags : List (Flag Arguments) :=
  [once "config" (some 'c') "path to the YAML configuration file"
      (·.config) (fun a p => { a with config := some p }) pure,
    setting "servers" none "numbers of storage servers"
      (·.servers) (fun o x => { o with servers := some x }) (listOf (unsigned 32)),
    setting "replicas" none "numbers of backup replicas per segment"
      (·.replicas) (fun o x => { o with replicas := some x }) (listOf (unsigned 32)),
    setting "backup-disks" none "number of backup disks per server (0, 1 or 2)"
      (·.backupDisks) (fun o x => { o with backupDisks := some x }) (unsigned 32),
    switch "disjunct" none "do not colocate clients with servers"
      fun o => { o with disjunct := true },
    setting "master-args" none "additional command line arguments for every master"
      (·.masterArgs) (fun o x => { o with masterArgs := some x }) pure,
    setting "transport" (some 't') "transport used to communicate with the servers"
      (·.transport) (fun o x => { o with transport := some x }) pure,
    setting "timeout" none "abort a run after this many seconds"
      (·.timeout) (fun o x => { o with timeout := some x }) (unsigned 64),
    setting "log-dir" none "top level directory for server logs"
      (·.logDir) (fun o x => { o with logDir := some x }) pure,
    setting "log-level" none "server log level (DEBUG, NOTICE, WARNING, ERROR or SILENT)"
      (·.logLevel) (fun o x => { o with logLevel := some x }) serverLogLevel,
    switch "debug" none "pause after starting the servers to allow attaching a debugger"
      fun o => { o with debug := true },
    switch "verbose" (some 'v') "let the cluster runner print progress messages"
      fun o => { o with verbose := true },
    setting "binary" none "path of the benchmark client binary"
      (·.binary) (fun o x => { o with binary := some x }) pure,
    setting "lrange-len" none "number of elements fetched by the LRANGE test"
      (·.lrangeLen) (fun o x => { o with lrangeLen := some x }) (unsigned 64),
    setting "time-limit" none "limit the run time of each client thread to this many seconds"
      (·.timeLimit) (fun o x => { o with timeLimit := some x }) (unsigned 64),
    setting "tests" none "names of the tests to run"
      (·.tests) (fun o x => { o with tests := some x }) (listOf pure),
    setting "server-span" none "numbers of servers the workload is spread over"
      (·.serverSpan) (fun o x => { o with serverSpan := some x }) (listOf (unsigned 32)),
    setting "value-size" none "value sizes in bytes"
      (·.valueSize) (fun o x => { o with valueSize := some x }) (listOf (unsigned 64)),
    setting "keyspace-len" none "sizes of the key space"
      (·.keySpaceLen) (fun o x => { o with keySpaceLen := some x }) (listOf (unsigned 64)),
    setting "clients" none "numbers of concurrent clients"
      (·.clients) (fun o x => { o with clients := some x }) (listOf clientCount),
    setting "total-ops" none "total operations per run, shared by all clients"
      (·.totalOps) (fun o x => { o with totalOps := some x }) (unsigned 64),
    setting "per-client-ops" none "operations per client and run"
      (·.perClientOps) (fun o x => { o with perClientOps := some x }) (unsigned 64),
    setting "output-dir" (some 'o') "root directory of all results"
      (·.outputDir) (fun o x => { o with outputDir := some x }) pure,
    switch "dry-run" none "log invocations instead of running them"
      fun o => { o with dryRun := true }]

/-- The name of the program. -/
def programName : String := "perfsweep"

/-- The subcommands with their words and descriptions, in the order the help text lists
them. -/
def subcommands : List (Subcommand × Entry) :=
  [(.run, ⟨"run", "run the sweep and reduce its results"⟩),
   (.sweep, ⟨"sweep", "run the sweep without reducing its results"⟩),
   (.reduce, ⟨"reduce", "reduce the results of a previous sweep " ++
      "The sweep dimensions must match the sweep that produced the results."⟩),
   (.version, ⟨"version", "print the " ++ programName ++ " version"⟩)]

/-- The command line of the program. -/
def program : Command Arguments :=
  ⟨programName, "Parameter sweeps of storage cluster benchmarks. Options given here " ++
    "override the configuration file and `PS__` environment variables. List options take " ++
    "comma-separated values.", flags, subcommands.map (·.2)⟩

/-- The command line of a subcommand, which takes no arguments. -/
def Entry.command (e : Entry) : Command Unit := ⟨programName ++ " " ++ e.name, e.description, [], []⟩

/-- Reads the program's command line, without the program's name. -/
def readArguments (argv : List String) : Except EarlyExit (Arguments × Subcommand) := do
  let (args, name, rest) ← program.readWithSubcommand {} argv
  match subcommands.find? (·.2.name == name) with
  | some (sub, e) =>
    e.command.read () rest
    pure (args, sub)
  | none => throw (unrecognized name)

end ClusterSweep.CommandLine
