import ClusterSweep.Program

/-!
# The executable

`perfsweep` on the host.  The program itself is `runProgram`, which acts on a `Disk`; here the
disk is a picture of every path the run can touch, taken before it starts: the configuration
file, a relative runner program, and below the output directory every shape's directory with
the result files of each test and client count.  Client result files are looked at in order up
to the first missing one, as reading stops there too.  Every path is taken with its parent
directories.  After the run, what it created or changed is written back, directories first, and
its two outputs are printed.

The environment is read from the process's own environment list.
-/

namespace ClusterSweep.Host

open ClusterSweep.CommandLine ClusterSweep.Settings

/-- The host path of a normal path. -/
def hostPath (p : List String) : String :=
  match p with
  | "/" :: rest => "/" ++ "/".intercalate rest
  | _ => "/".intercalate p

/-- What the host has at a path: a file with its bytes, a directory, or nothing. -/
def probe (path : String) : IO (Option Node) := do
  try
    let data ← IO.FS.readBinFile path
    pure (some (.file data))
  catch e =>
    match e with
    | .inappropriateType _ 21 _ => pure (some .dir)
    | _ => pure none

/-- Adds what the host has at a normal path to `disk`. -/
def addNode (disk : Disk) (p : List String) : IO (Disk × Option Node) := do
  if p.isEmpty || p == ["/"] then return (disk, some .dir)
  match disk.find? p with
  | some n => pure (disk, some n)
  | none =>
    match ← probe (hostPath p) with
    | some n => pure (disk.put p n, some n)
    | none => pure (disk, none)

/-- Adds what the host has at each place that following `path` passes to `disk`; tells
whether `path` leads to a file. -/
def addPath (disk : Disk) (path : String) : IO (Disk × Bool) := do
  let cs := components path
  let mut d := disk
  let mut cur : List String := if cs.head? == some "/" then ["/"] else []
  let mut last : Option Node := some .dir
  for c in cs.dropWhile (· == "/") do
    if c == ".." then
      cur := up cur
      last := some .dir
    else
      cur := cur ++ [c]
      let (d', n) ← addNode d cur
      d := d'
      last := n
  pure (d, last matches some (.file _))

/-- Adds the files `file 1`, `file 2`, … up to the first one that is missing. -/
def addNumbered (disk : Disk) (count : Nat) (file : Nat → String) : IO Disk := do
  let mut d := disk
  for i in [1:count + 1] do
    let (d', found) ← addPath d (file i)
    d := d'
    if !found then break
  pure d

/-- Adds everything a sweep or reduction of `config` can touch. -/
def addResults (disk : Disk) (config : Config) : IO Disk := do
  let mut d := disk
  if let .command program _ := config.runner then
    if program.contains '/' then d := (← addPath d program).1
  d := (← addPath d config.outputDir).1
  let space : Space := ⟨config.sweep.servers, config.sweep.replicas, config.sweep.serverSpan,
    config.sweep.valueSize, config.sweep.keySpaceLen, config.sweep.tests, config.sweep.clients⟩
  for shape in space.shapes do
    let dir := joinPath config.outputDir shape.dirName
    d := (← addPath d dir).1
    for test in space.tests do
      d := (← addPath d (throughputVsClients dir test)).1
      for c in space.clients do
        let files : RunFiles := ⟨dir, test, c⟩
        d := (← addPath d files.cdf).1
        d := (← addPath d files.throughput).1
        d ← addNumbered d c files.latencies
        d ← addNumbered d c files.summary
  pure d

/-- The picture of the paths a run with the arguments `argv` can touch. -/
def snapshot (argv : List String) (env : List (String × String)) : IO Disk := do
  match readArguments argv with
  | .error _ => pure {}
  | .ok (args, _) =>
    let disk ← match args.config with
      | some path => do pure (← addPath {} path).1
      | none => pure {}
    match Config.load disk args.config env args.overrides with
    | .ok (.ok config) => addResults disk config
    | _ => pure disk

/-- Whether two nodes are the same. -/
def sameNode : Node → Node → Bool
  | .dir, .dir => true
  | .file a, .file b => a.data == b.data
  | _, _ => false

/-- Writes to the host what `after` has and `before` has not, directories first. -/
def writeBack (before after : Disk) : IO Unit := do
  let changed := after.nodes.filter fun (p, n) => match before.find? p with
    | some m => !sameNode m n
    | none => true
  for (p, n) in changed do
    if n matches .dir then
      try IO.FS.createDirAll (hostPath p) catch _ => pure ()
  for (p, n) in changed do
    if let .file data := n then
      try IO.FS.writeBinFile (hostPath p) data catch _ => pure ()

/-- The variables of an environment list: `NAME=VALUE` entries separated by zero bytes. -/
def parseEnvironment (data : ByteArray) : List (String × String) :=
  let entries := (data.toList.splitOn 0).filterMap fun bytes => String.fromUTF8? ⟨bytes.toArray⟩
  entries.filterMap fun entry =>
    match entry.splitOn "=" with
    | name :: rest => if name.isEmpty then none else some (name, "=".intercalate rest)
    | [] => none

/-- The environment of this process. -/
def environment : IO (List (String × String)) := do
  try
    pure (parseEnvironment (← IO.FS.readBinFile "/proc/self/environ"))
  catch _ => pure []

end ClusterSweep.Host

open ClusterSweep ClusterSweep.Host in
/-- Runs `perfsweep` with the arguments `argv` on the host's file system. -/
def main (argv : List String) : IO UInt32 := do
  let env ← environment
  let disk ← snapshot argv env
  let exit := runProgram argv env disk
  writeBack disk exit.disk
  let out ← IO.getStdout
  out.putStr exit.stdout
  out.flush
  let err ← IO.getStderr
  err.putStr exit.stderr
  err.flush
  pure exit.status.toUInt32
