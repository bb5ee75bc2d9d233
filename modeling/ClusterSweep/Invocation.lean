import ClusterSweep.Duration

/-!
# Invocations

An invocation is everything the cluster runner needs for one run: the cluster's size and
settings, and the command line of the benchmark client that each client process executes.
Both are rendered as argument lists with values at fixed places:

    cluster: --servers S --replicas R --numBackupDisks B --clients P --transport T
             --timeout SECS --logDir D --logLevel L --shareHosts
             [--masterArgs M] [--disjunct] [--debug] [--verbose]
    client:  --tests T --valueSize V --lrangelen L --keyspacelen K --serverSpan S
             --threads N --requests Q [--timeLimit SECS] --outputDir O

Durations are passed as whole seconds, a started second counting as one.  The client's command
line is the binary followed by its arguments, separated by single blanks and not quoted.
-/

namespace ClusterSweep

/-- How much the storage servers log. -/
inductive ServerLogLevel where
  /-- Everything, including debug output. -/
  | debug
  /-- Notable events. -/
  | notice
  /-- Warnings and errors. -/
  | warning
  /-- Errors only. -/
  | error
  /-- Nothing at all. -/
  | silent
  deriving DecidableEq, Repr

namespace ServerLogLevel

/-- The name the cluster runner expects. -/
def name : ServerLogLevel → String
  | .debug => "DEBUG"
  | .notice => "NOTICE"
  | .warning => "WARNING"
  | .error => "ERROR"
  | .silent => "SILENT"

/-- All levels, in the order they are listed. -/
def all : List ServerLogLevel := [.debug, .notice, .warning, .error, .silent]

/-- The level with the given name. -/
def ofName? (s : String) : Option ServerLogLevel := all.find? (·.name == s)

end ServerLogLevel

/-- Cluster settings shared by every run of a sweep. -/
structure ClusterOptions where
  /-- Backup disks on each server host. -/
  backupDisks : Nat := 2
  /-- Keep clients off the server hosts. -/
  disjunct : Bool := false
  /-- Extra command line arguments for every master. -/
  masterArgs : Option String := none
  /-- Transport between clients and servers. -/
  transport : String := "basic+infud"
  /-- Time after which a run is aborted. -/
  timeout : Duration := Duration.ofSecs 30
  /-- Pause after starting the servers so that a debugger can attach. -/
  debug : Bool := false
  /-- Top directory of the server logs. -/
  logDir : String := "logs"
  /-- How much the servers log. -/
  logLevel : ServerLogLevel := .notice
  /-- Let the cluster runner report progress. -/
  verbose : Bool := false
  deriving DecidableEq, Repr

/-- Benchmark client settings shared by every run of a sweep. -/
structure ClientOptions where
  /-- Path of the benchmark binary on the client hosts. -/
  binary : String := "ramdis-benchmark"
  /-- Elements fetched by the LRANGE test. -/
  lrangeLen : Nat := 100
  /-- Limit on the run time of each client thread. -/
  timeLimit : Option Duration := none
  deriving DecidableEq, Repr

/-- The benchmark client command line of one run. -/
structure ClientCommand where
  /-- Path of the benchmark binary. -/
  binary : String
  /-- The test to execute. -/
  test : String
  /-- Size of written values in bytes. -/
  valueSize : Nat
  /-- Elements fetched by the LRANGE test. -/
  lrangeLen : Nat
  /-- Number of distinct keys. -/
  keySpaceLen : Nat
  /-- Servers the workload is spread over. -/
  serverSpan : Nat
  /-- Client threads per benchmark process. -/
  threads : Nat
  /-- Requests per client thread. -/
  requests : Nat
  /-- Limit on the run time of each client thread. -/
  timeLimit : Option Duration
  /-- Directory the clients write their results to. -/
  outputDir : String
  deriving DecidableEq, Repr

namespace ClientCommand

/-- The arguments of the benchmark binary. -/
def args (c : ClientCommand) : Except Overflow (List String) := do
  let limit ← match c.timeLimit with
    | some d => do
      let secs ← d.wholeSecs
      pure ["--timeLimit", toString secs]
    | none => pure []
  pure (["--tests", c.test, "--valueSize", toString c.valueSize,
    "--lrangelen", toString c.lrangeLen, "--keyspacelen", toString c.keySpaceLen,
    "--serverSpan", toString c.serverSpan, "--threads", toString c.threads,
    "--requests", toString c.requests] ++ limit ++ ["--outputDir", c.outputDir])

/-- The binary and its arguments as one line, separated by single blanks. -/
def commandLine (c : ClientCommand) : Except Overflow String := do
  let args ← c.args
  pure (" ".intercalate (c.binary :: args))

end ClientCommand

/-- Everything the cluster runner needs for one run. -/
structure Invocation where
  /-- Storage servers. -/
  servers : Nat
  /-- Backup replicas per segment. -/
  replicas : Nat
  /-- Benchmark client processes. -/
  clientProcesses : Nat
  /-- Shared cluster settings. -/
  cluster : ClusterOptions
  /-- The benchmark client command line. -/
  client : ClientCommand
  deriving DecidableEq, Repr

namespace Invocation

/-- The switches of the cluster settings that are on, in their fixed order. -/
def flags (o : ClusterOptions) : List String :=
  [(o.disjunct, "--disjunct"), (o.debug, "--debug"), (o.verbose, "--verbose")].filterMap
    fun (on, flag) => if on then some flag else none

/-- The arguments of the cluster runner, without the client command line. -/
def clusterArgs (inv : Invocation) : Except Overflow (List String) := do
  let o := inv.cluster
  let timeout ← o.timeout.wholeSecs
  let master := match o.masterArgs with
    | some m => ["--masterArgs", m]
    | none => []
  pure (["--servers", toString inv.servers, "--replicas", toString inv.replicas,
    "--numBackupDisks", toString o.backupDisks, "--clients", toString inv.clientProcesses,
    "--transport", o.transport, "--timeout", toString timeout, "--logDir", o.logDir,
    "--logLevel", o.logLevel.name, "--shareHosts"] ++ master ++ flags o)

end Invocation

end ClusterSweep
