import ClusterSweep.Plan
import ClusterSweep.Settings.Decode
import ClusterSweep.Text.Integer

/-!
# The settings of a sweep

`Config` gathers everything a sweep is run with: the output root, cluster and client settings,
the cluster runner, the sweep dimensions with the operation target, and logging.  Every field
has a default, so an empty table is a complete configuration.

`Config.decode` reads a configuration from a settings tree, table keys in their sorted order
(the first rejected key in that order is the one reported), unknown keys ignored.  The runner
is a table with a `type` entry naming the variant (`command` with `program` and `grace`, or
`dry_run`); its other entries are read only once the variant is known, and a rejection among
them no longer knows its source.  The log level is read as a text first and then as a level,
so a text that names no level is reported with the source of the table around it.

`Config.toValue` writes a configuration back as a settings tree, durations as their text and
the log level in lower case; it is the lowest layer of layered settings.
-/

namespace ClusterSweep.Settings

/-- How much the program itself logs. -/
inductive LogLevel where
  /-- Nothing. -/
  | off
  /-- Errors only. -/
  | error
  /-- Warnings and errors. -/
  | warn
  /-- Progress messages and above. -/
  | info
  /-- Debugging messages and above. -/
  | debug
  /-- Everything. -/
  | trace
  deriving DecidableEq, Repr

namespace LogLevel

/-- The levels in order, the position of each being its number. -/
def all : List LogLevel := [.off, .error, .warn, .info, .debug, .trace]

/-- The lower-case name of a level. -/
def name : LogLevel → String
  | .off => "off"
  | .error => "error"
  | .warn => "warn"
  | .info => "info"
  | .debug => "debug"
  | .trace => "trace"

/-- A level named by its number `0` to `5`, by its name in any case, or the empty text for
`error`. -/
def ofText? (s : String) : Option LogLevel :=
  let byNumber := match Text.readUnsigned 64 s with
    | .ok n => all[n]?
    | .error _ => none
  match byNumber with
  | some l => some l
  | none =>
    if s.isEmpty then some .error
    else all.find? fun l => s.toList.map Char.toLower == l.name.toList

/-- The message of a text that names no level. -/
def parseErrorText : String :=
  "error parsing level filter: expected one of \"off\", \"error\", \"warn\", \"info\", " ++
    "\"debug\", \"trace\", or a number 0-5"

end LogLevel

/-- How log lines are laid out. -/
inductive LogFormat where
  /-- Chosen by whether the output is a terminal. -/
  | auto
  /-- Coloured, several lines per entry. -/
  | pretty
  /-- One plain line per entry. -/
  | simplified
  /-- One JSON object per entry. -/
  | json
  deriving DecidableEq, Repr

/-- The names of the log formats, in declaration order. -/
def LogFormat.names : List (String × LogFormat) :=
  [("auto", .auto), ("pretty", .pretty), ("simplified", .simplified), ("json", .json)]

/-- The name of a log format. -/
def LogFormat.name : LogFormat → String
  | .auto => "auto"
  | .pretty => "pretty"
  | .simplified => "simplified"
  | .json => "json"

/-- Logging settings. -/
structure Logging where
  /-- The least level written. -/
  level : LogLevel := .info
  /-- The layout of log lines. -/
  format : LogFormat := .auto
  deriving DecidableEq, Repr

/-- How the points of a sweep are executed. -/
inductive Runner where
  /-- A cluster runner program is started for every point. -/
  | command (program : String) (grace : Duration)
  /-- Points are only reported. -/
  | dryRun
  deriving DecidableEq, Repr

/-- The runner of a configuration that names none: `cluster-run` with ten seconds of grace. -/
def Runner.default : Runner := .command "cluster-run" (Duration.ofSecs 10)

/-- The sweep dimensions and the operation target as settings. -/
structure SweepConfig where
  /-- Numbers of storage servers. -/
  servers : List Nat := [4]
  /-- Numbers of backup replicas per segment. -/
  replicas : List Nat := [3]
  /-- Numbers of servers the workload is spread over. -/
  serverSpan : List Nat := [1]
  /-- Value sizes in bytes. -/
  valueSize : List Nat := [3]
  /-- Sizes of the key space. -/
  keySpaceLen : List Nat := [1]
  /-- Names of the tests. -/
  tests : List String := []
  /-- Numbers of concurrent clients. -/
  clients : List Nat := []
  /-- Operations per run, shared by its clients. -/
  totalOps : Option Nat := none
  /-- Operations per client and run. -/
  perClientOps : Option Nat := none
  deriving DecidableEq, Repr

/-- Everything a sweep is run with. -/
structure Config where
  /-- Root directory of all results. -/
  outputDir : String := "results"
  /-- Cluster settings. -/
  cluster : ClusterOptions := {}
  /-- Benchmark client settings. -/
  client : ClientOptions := {}
  /-- How points are executed. -/
  runner : Runner := Runner.default
  /-- Sweep dimensions and operation target. -/
  sweep : SweepConfig := {}
  /-- Logging settings. -/
  logging : Logging := {}
  deriving DecidableEq, Repr

/-! ## Reading -/

/-- The names of the server log levels, in declaration order. -/
def serverLogLevelNames : List (String × ServerLogLevel) :=
  ServerLogLevel.all.map fun l => (l.name, l)

/-- Cluster settings. -/
def decodeCluster (d : Dialect) : Decoder ClusterOptions :=
  record d "ClusterOptions" {}
    [⟨"backup_disks", fun v o => do pure { o with backupDisks := ← u32 v }⟩,
     ⟨"disjunct", fun v o => do pure { o with disjunct := ← bool v }⟩,
     ⟨"master_args", fun v o => do pure { o with masterArgs := ← optional text v }⟩,
     ⟨"transport", fun v o => do pure { o with transport := ← text v }⟩,
     ⟨"timeout", fun v o => do pure { o with timeout := ← duration v }⟩,
     ⟨"debug", fun v o => do pure { o with debug := ← bool v }⟩,
     ⟨"log_dir", fun v o => do pure { o with logDir := ← path v }⟩,
     ⟨"log_level", fun v o => do
        pure { o with logLevel := ← variant d "ServerLogLevel" serverLogLevelNames v }⟩,
     ⟨"verbose", fun v o => do pure { o with verbose := ← bool v }⟩]

/-- Benchmark client settings. -/
def decodeClient (d : Dialect) : Decoder ClientOptions :=
  record d "ClientOptions" {}
    [⟨"binary", fun v o => do pure { o with binary := ← path v }⟩,
     ⟨"lrange_len", fun v o => do pure { o with lrangeLen := ← u64 v }⟩,
     ⟨"time_limit", fun v o => do pure { o with timeLimit := ← optional duration v }⟩]

/-- Sweep dimensions and the operation target. -/
def decodeSweep (d : Dialect) : Decoder SweepConfig :=
  record d "SweepConfig" {}
    [⟨"servers", fun v o => do pure { o with servers := ← list u32 v }⟩,
     ⟨"replicas", fun v o => do pure { o with replicas := ← list u32 v }⟩,
     ⟨"server_span", fun v o => do pure { o with serverSpan := ← list u32 v }⟩,
     ⟨"value_size", fun v o => do pure { o with valueSize := ← list u64 v }⟩,
     ⟨"key_space_len", fun v o => do pure { o with keySpaceLen := ← list u64 v }⟩,
     ⟨"tests", fun v o => do pure { o with tests := ← list text v }⟩,
     ⟨"clients", fun v o => do pure { o with clients := ← list nonzeroU32 v }⟩,
     ⟨"total_ops", fun v o => do pure { o with totalOps := ← optional u64 v }⟩,
     ⟨"per_client_ops", fun v o => do pure { o with perClientOps := ← optional u64 v }⟩]

/-- A log level, read as a text and then as a level; a text naming no level is rejected
without a source of its own. -/
def decodeLogLevel : Decoder LogLevel := fun v => do
  let s ← text v
  match LogLevel.ofText? s with
  | some l => pure l
  | none => reject (.message LogLevel.parseErrorText)

/-- Logging settings. -/
def decodeLogging (d : Dialect) : Decoder Logging :=
  record d "Logging" {}
    [⟨"level", fun v o => do pure { o with level := ← decodeLogLevel v }⟩,
     ⟨"format", fun v o => do pure { o with format := ← variant d "LogFormat" LogFormat.names v }⟩]

/-- The two runner variants. -/
inductive RunnerKind where
  /-- A runner program. -/
  | command
  /-- Reporting only. -/
  | dryRun
  deriving DecidableEq, Repr

/-- The runner variant named by the `type` entry: its name, or in layered settings its
position. -/
def decodeRunnerKind (d : Dialect) : Decoder RunnerKind := fun v =>
  attributed v <| match d, v with
    | _, .scalar _ (.str "command") => pure .command
    | _, .scalar _ (.str "dry_run") => pure .dryRun
    | _, .scalar _ (.str s) => reject (.unknownVariant s ["command", "dry_run"])
    | .layered, .scalar _ (.unsigned 0) => pure .command
    | .layered, .scalar _ (.unsigned 1) => pure .dryRun
    | .layered, .scalar _ (.unsigned n) =>
      if n < Nat.pow 2 64 then
        reject (.invalidValue (Found.ofScalar (.unsigned n)) "variant index 0 <= i < 2")
      else wrongKind v "variant identifier"
    | _, v => wrongKind v "variant identifier"

/-- The content of a runner once its variant is known: the entries or items besides the
variant. -/
inductive RunnerContent where
  /-- The entries of a table other than `type`. -/
  | entries (es : List (String × Value))
  /-- The items of a list after the first. -/
  | items (xs : List Value)

mutual

/-- Takes a value aside before its variant is known.  Layered settings cannot take aside an
integer beyond 64 bits; the first one met, entries in key order and items in order, is
rejected where it sits. -/
def setAside (d : Dialect) : Value → Except DecodeError Unit
  | .scalar o s =>
    attributed (.scalar o s) <| match d, Found.ofScalar s with
      | .layered, .other _ => wrongKind (.scalar o s) "any value"
      | _, _ => pure ()
  | .list o xs => attributed (.list o xs) (setAsideItems d 0 xs)
  | .table o es => attributed (.table o es) (setAsideEntries d es)

/-- Takes aside the items of a list from position `i` on. -/
def setAsideItems (d : Dialect) (i : Nat) : List Value → Except DecodeError Unit
  | [] => pure ()
  | x :: rest => do
    below (toString i) (setAside d x)
    setAsideItems d (i + 1) rest

/-- Takes aside the entries of a table. -/
def setAsideEntries (d : Dialect) : List (String × Value) → Except DecodeError Unit
  | [] => pure ()
  | (k, x) :: rest => do
    below k (setAside d x)
    setAsideEntries d rest

end

/-- Splits a runner into its variant and the rest, reading a table's entries in key order and
a list's items in order: the `type` entry or the first item names the variant, and every other
value is taken aside (`setAside`).  A table without `type` and an empty list miss it. -/
def runnerParts (d : Dialect) : Decoder (RunnerKind × RunnerContent) := fun v =>
  attributed v <| match v with
    | .table _ entries => do
      let kind ← entries.foldlM (fun (kind : Option RunnerKind) (k, x) =>
        if k == "type" then some <$> below "type" (decodeRunnerKind d x)
        else do
          below k (setAside d x)
          pure kind) none
      match kind with
      | some kind => pure (kind, .entries (entries.filter (·.1 != "type")))
      | none => reject (.missingField "type")
    | .list _ (x :: rest) => do
      let kind ← below "0" (decodeRunnerKind d x)
      setAsideItems d 1 rest
      pure (kind, .items rest)
    | .list _ [] => reject (.missingField "type")
    | v => wrongKind v "internally tagged enum Runner"

/-- A value set apart from its source, as the content of a runner is. -/
def Value.detached : Value → Value
  | .scalar _ s => .scalar none s
  | .list _ xs => .list none xs
  | .table _ es => .table none es

/-- The program and grace time of a command runner, both required: the entries are read in key
order, then a missing program is reported before a missing grace time. -/
def decodeCommand (content : RunnerContent) : Except DecodeError Runner :=
  match content with
  | .entries es => do
    let step := fun (acc : Option String × Option Duration) (entry : String × Value) =>
      let (p, g) := acc
      let (k, x) := entry
      if k == "program" then do pure (some (← path (Value.detached x)), g)
      else if k == "grace" then do pure (p, some (← duration (Value.detached x)))
      else pure (p, g)
    let found ← es.foldlM step (none, none)
    match found.1, found.2 with
    | some p, some g => pure (.command p g)
    | none, _ => reject (.missingField "program")
    | _, none => reject (.missingField "grace")
  | .items xs => do
    match xs with
    | [p, g] => do
      let program ← path (Value.detached p)
      let grace ← duration (Value.detached g)
      pure (.command program grace)
    | [p] => do
      let _ ← path (Value.detached p)
      reject (.invalidLength 1 "struct variant Runner::Command with 2 elements")
    | [] => reject (.invalidLength 0 "struct variant Runner::Command with 2 elements")
    | p :: g :: _ => do
      let _ ← path (Value.detached p)
      let _ ← duration (Value.detached g)
      reject (.invalidLength xs.length "2 elements in sequence")

/-- The cluster runner.  Once the variant is known, the content taken aside is read as that
variant, and its rejections are placed at the runner: a dry runner takes no items. -/
def decodeRunner (d : Dialect) : Decoder Runner := fun v => do
  let (kind, content) ← runnerParts d v
  attributed v <| match kind, content with
    | .dryRun, .items [] | .dryRun, .entries _ => pure .dryRun
    | .dryRun, .items xs => reject (.invalidLength xs.length "0 elements in sequence")
    | .command, content => decodeCommand content

/-- A whole configuration. -/
def Config.decode (d : Dialect) : Decoder Config :=
  record d "Config" {}
    [⟨"output_dir", fun v c => do pure { c with outputDir := ← path v }⟩,
     ⟨"cluster", fun v c => do pure { c with cluster := ← decodeCluster d v }⟩,
     ⟨"client", fun v c => do pure { c with client := ← decodeClient d v }⟩,
     ⟨"runner", fun v c => do pure { c with runner := ← decodeRunner d v }⟩,
     ⟨"sweep", fun v c => do pure { c with sweep := ← decodeSweep d v }⟩,
     ⟨"logging", fun v c => do pure { c with logging := ← decodeLogging d v }⟩]

/-- An operation target: a table of one entry, `total` or `per_client`, whose value is the
count. -/
def decodeOpsTarget : Decoder OpsTarget := fun v =>
  let names := ["total", "per_client"]
  let make := fun (k : String) (n : Nat) => if k == "total" then OpsTarget.total n else .perClient n
  attributed v <| match v with
    | .scalar _ (.str s) =>
      if names.contains s then reject (.invalidType .unitVariant "newtype variant")
      else reject (.unknownVariant s names)
    | .table _ [(k, x)] =>
      if names.contains k then make k <$> u64 x else reject (.unknownVariant k names)
    | .table _ _ => reject (.invalidValue .map "map with a single key")
    | v => wrongKind v "string or map"

/-! ## Writing -/

/-- A text leaf. -/
def strValue (o : Option Origin) (s : String) : Value := .scalar o (.str s)

/-- A number leaf. -/
def natValue (o : Option Origin) (n : Nat) : Value := .scalar o (.unsigned n)

/-- A truth leaf. -/
def boolValue (o : Option Origin) (b : Bool) : Value := .scalar o (.bool b)

/-- An optional leaf, empty for `none`. -/
def optValue {α : Type} (o : Option Origin) (f : Option Origin → α → Value) : Option α → Value
  | some a => f o a
  | none => .scalar o .null

/-- A list of numbers. -/
def natsValue (o : Option Origin) (ns : List Nat) : Value := .list o (ns.map (natValue o))

/-- The settings tree of a runner. -/
def Runner.toValue (o : Option Origin) : Runner → Value
  | .command program grace => Value.ofEntries o
      [("type", strValue o "command"), ("program", strValue o program),
       ("grace", strValue o grace.format)]
  | .dryRun => Value.ofEntries o [("type", strValue o "dry_run")]

/-- The settings tree of a configuration, every node attributed to `o`. -/
def Config.toValue (o : Option Origin) (c : Config) : Value :=
  let cl := c.cluster
  let cli := c.client
  let sw := c.sweep
  Value.ofEntries o
    [("output_dir", strValue o c.outputDir),
     ("cluster", Value.ofEntries o
        [("backup_disks", natValue o cl.backupDisks), ("disjunct", boolValue o cl.disjunct),
         ("master_args", optValue o strValue cl.masterArgs),
         ("transport", strValue o cl.transport), ("timeout", strValue o cl.timeout.format),
         ("debug", boolValue o cl.debug), ("log_dir", strValue o cl.logDir),
         ("log_level", strValue o cl.logLevel.name), ("verbose", boolValue o cl.verbose)]),
     ("client", Value.ofEntries o
        [("binary", strValue o cli.binary), ("lrange_len", natValue o cli.lrangeLen),
         ("time_limit", optValue o (fun o d => strValue o d.format) cli.timeLimit)]),
     ("runner", c.runner.toValue o),
     ("sweep", Value.ofEntries o
        [("servers", natsValue o sw.servers), ("replicas", natsValue o sw.replicas),
         ("server_span", natsValue o sw.serverSpan), ("value_size", natsValue o sw.valueSize),
         ("key_space_len", natsValue o sw.keySpaceLen),
         ("tests", .list o (sw.tests.map (strValue o))), ("clients", natsValue o sw.clients),
         ("total_ops", optValue o natValue sw.totalOps),
         ("per_client_ops", optValue o natValue sw.perClientOps)]),
     ("logging", Value.ofEntries o
        [("level", strValue o c.logging.level.name),
         ("format", strValue o c.logging.format.name)])]

/-! ## The sweep of a configuration -/

/-- The sweep space of a configuration, which must have no empty dimension. -/
def Config.space (c : Config) : Except ConfigError Space := do
  let sw := c.sweep
  let space : Space := ⟨sw.servers, sw.replicas, sw.serverSpan, sw.valueSize, sw.keySpaceLen,
    sw.tests, sw.clients⟩
  space.validate
  pure space

/-- The sweep of a configuration: the operation target is checked first, then the space. -/
def Config.toSweep (c : Config) : Except ConfigError Sweep := do
  let ops ← OpsTarget.ofOptions c.sweep.totalOps c.sweep.perClientOps
  let space ← c.space
  Sweep.new space ⟨c.cluster, c.client, ops, c.outputDir⟩

end ClusterSweep.Settings
