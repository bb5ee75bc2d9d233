import ClusterSweep.Abort
import ClusterSweep.Disk
import ClusterSweep.Settings.Config
import ClusterSweep.Settings.Environment
import ClusterSweep.Settings.Yaml

/-!
# Layered settings

A configuration is assembled from four layers, each layered over the ones before it
(`Value.merge`): the defaults, the YAML file if one is named, the environment variables with the
prefix `PS__`, and the options given on the command line (`Overrides`).  Tables merge key by
key and anything else is replaced, so a list from the environment replaces the file's list.
The merged tree is then read as a `Config` in the layered dialect, so a rejected value is
reported with its key and the layer it came from.

The command-line layer always holds the tables `cluster`, `client` and `sweep`, empty when no
option sets one of their fields; so a lower layer that gives one of them as something other than
a table is replaced by the empty table and leaves the defaults.

A named file that is not found, or that is a directory, counts as empty.  A file that is not
UTF-8 or not YAML is rejected with the name of the file.

The merge, the readers of the file and of the environment, the writing of records as trees and
the reading of a configuration from a tree come from the libraries the program is built on.
Loading takes them as a `Library` (`Config.loadWith`); `Library.standard` is the program's own,
and `Config.load` loads with it.  What is proved of loading in general holds for every library
that keeps the laws the layering relies on.
-/

namespace ClusterSweep.Settings

/-- The prefix of settings variables. -/
def envPrefix : String := "PS__"

/-- Settings given as command-line options; each one is set only when given. -/
structure Overrides where
  /-- Root directory of all results. -/
  outputDir : Option String := none
  /-- Backup disks per server. -/
  backupDisks : Option Nat := none
  /-- Keep clients off the server hosts. -/
  disjunct : Bool := false
  /-- Extra arguments for every master. -/
  masterArgs : Option String := none
  /-- Transport between clients and servers. -/
  transport : Option String := none
  /-- Seconds after which a run is aborted. -/
  timeout : Option Nat := none
  /-- Pause for a debugger. -/
  debug : Bool := false
  /-- Top directory of server logs. -/
  logDir : Option String := none
  /-- How much the servers log. -/
  logLevel : Option ServerLogLevel := none
  /-- Let the cluster runner report progress. -/
  verbose : Bool := false
  /-- Path of the benchmark binary. -/
  binary : Option String := none
  /-- Elements fetched by the LRANGE test. -/
  lrangeLen : Option Nat := none
  /-- Seconds each client thread may run. -/
  timeLimit : Option Nat := none
  /-- Numbers of storage servers. -/
  servers : Option (List Nat) := none
  /-- Numbers of backup replicas. -/
  replicas : Option (List Nat) := none
  /-- Numbers of servers the workload is spread over. -/
  serverSpan : Option (List Nat) := none
  /-- Value sizes. -/
  valueSize : Option (List Nat) := none
  /-- Key space sizes. -/
  keySpaceLen : Option (List Nat) := none
  /-- Test names. -/
  tests : Option (List String) := none
  /-- Client counts. -/
  clients : Option (List Nat) := none
  /-- Operations per run. -/
  totalOps : Option Nat := none
  /-- Operations per client and run. -/
  perClientOps : Option Nat := none
  /-- Report the runs instead of running them. -/
  dryRun : Bool := false
  deriving Repr

/-- The settings tree of the command-line layer. -/
def Overrides.entries (ov : Overrides) : List (String × Value) :=
  let o := some Origin.commandLine
  let opt := fun {α : Type} (k : String) (f : α → Value) (a : Option α) =>
    match a with
    | some x => [(k, f x)]
    | none => []
  let flag := fun (k : String) (b : Bool) => if b then [(k, boolValue o true)] else []
  let nats := fun (ns : List Nat) => natsValue o ns
  let secs := fun (n : Nat) => strValue o (Duration.ofSecs n).format
  Value.sortEntries <| opt "output_dir" (strValue o) ov.outputDir ++
  [("cluster", Value.ofEntries o (opt "backup_disks" (natValue o) ov.backupDisks ++
      flag "disjunct" ov.disjunct ++ opt "master_args" (strValue o) ov.masterArgs ++
      opt "transport" (strValue o) ov.transport ++ opt "timeout" secs ov.timeout ++
      flag "debug" ov.debug ++ opt "log_dir" (strValue o) ov.logDir ++
      opt "log_level" (fun l => strValue o l.name) ov.logLevel ++ flag "verbose" ov.verbose)),
   ("client", Value.ofEntries o (opt "binary" (strValue o) ov.binary ++
      opt "lrange_len" (natValue o) ov.lrangeLen ++ opt "time_limit" secs ov.timeLimit)),
   ("sweep", Value.ofEntries o (opt "servers" nats ov.servers ++ opt "replicas" nats ov.replicas ++
      opt "server_span" nats ov.serverSpan ++ opt "value_size" nats ov.valueSize ++
      opt "key_space_len" nats ov.keySpaceLen ++
      opt "tests" (fun ts => .list o (ts.map (strValue o))) ov.tests ++
      opt "clients" nats ov.clients ++ opt "total_ops" (natValue o) ov.totalOps ++
      opt "per_client_ops" (natValue o) ov.perClientOps))] ++
  (if ov.dryRun then [("runner", Runner.dryRun.toValue o)] else [])

/-- How a file path is named in messages: its components joined by `/`, so that empty
components and `.` are gone and `..` stays. -/
def shownPath (path : String) : String :=
  match components path with
  | "/" :: rest => "/" ++ "/".intercalate rest
  | cs => "/".intercalate cs

/-- What loading takes from the libraries it is built on: the merge of settings trees, the
readers of a YAML text and of the environment, the writing of a configuration and of the
command-line options as trees, and the reading of a configuration from a tree. -/
structure Library where
  /-- Layers the second tree over the first. -/
  merge : Value → Value → Value
  /-- The settings of a YAML text, its nodes marked with a source. -/
  readYaml : String → Option Origin → Except String (List (String × Value))
  /-- The settings of the environment variables with a prefix. -/
  environment : String → List (String × String) → List (String × Value)
  /-- A configuration written as a tree, its nodes marked with a source. -/
  serialize : Option Origin → Config → Value
  /-- The command-line options written as a tree. -/
  overrides : Overrides → List (String × Value)
  /-- Reads a configuration from a tree. -/
  decode : Value → Except DecodeError Config

/-- The libraries of the program. -/
def Library.standard : Library where
  merge := Value.merge
  readYaml := Yaml.readTable
  environment := Environment.layer
  serialize := Config.toValue
  overrides := Overrides.entries
  decode := Config.decode .layered

/-- The defaults layer: the default configuration written as a tree. -/
def Library.defaults (lib : Library) : List (String × Value) :=
  match lib.serialize (some .defaults) {} with
  | .table _ es => es
  | _ => []

/-- The settings of the YAML file at `path`, empty when there is no such file. -/
def Library.fileLayer (lib : Library) (disk : Disk) (path : String) :
    Except String (List (String × Value)) :=
  match disk.readFile path with
  | .error _ => .ok []
  | .ok data =>
    let shown := shownPath path
    let source := " in " ++ (Origin.file shown).describe
    match String.fromUTF8? data with
    | none => .error ("stream did not contain valid UTF-8" ++ source)
    | some text => (lib.readYaml text (some (.file shown))).mapError (· ++ source)

/-- The file layer: the settings of the file at the path if one is given, none otherwise. -/
def Library.fileSource (lib : Library) (disk : Disk) : Option String →
    Except String (List (String × Value))
  | some p => lib.fileLayer disk p
  | none => .ok []

/-- Loads the configuration from the layers: defaults, the file at `path` if given, the
environment variables `env`, and the command-line options, each merged over the ones before.
The outer result is a stop of the program while reading a value; the inner one is the
configuration or why it is rejected. -/
def Config.loadWith (lib : Library) (disk : Disk) (path : Option String)
    (env : List (String × String)) (ov : Overrides) : Except Abort (Except String Config) :=
  match lib.fileSource disk path with
  | .error msg => .ok (.error msg)
  | .ok fileEntries =>
    let upper := [fileEntries, lib.environment envPrefix env, lib.overrides ov]
    let root := (upper.map (Value.table none)).foldl lib.merge (.table none lib.defaults)
    match lib.decode root with
    | .ok c => .ok (.ok c)
    | .error e =>
      match e.stopped? with
      | some a => .error a
      | none => .ok (.error e.layeredMessage)

/-- Loads the configuration with the program's libraries. -/
def Config.load (disk : Disk) (path : Option String) (env : List (String × String))
    (ov : Overrides) : Except Abort (Except String Config) :=
  Config.loadWith .standard disk path env ov

end ClusterSweep.Settings
