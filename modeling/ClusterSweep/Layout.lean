import ClusterSweep.Shape

/-!
# Result layout

Every run of a sweep writes into the directory of its shape, below the output root.  In that
directory the benchmark clients of a run with `N` clients write, for each client `i` of
`1 … N`, the files `TEST_clientN-i_reqLatencies.dat` and `TEST_clientN-i_execSummary.dat`;
reduction adds `TEST_clientN-all_reqLatencies.cdf`, `TEST_clientN-all_throughput.dat` and, for
the whole test, `TEST_throughput_v_clients.dat`.

Paths are texts joined with `/`: joining to an empty path gives the bare name, a path that
already ends in `/` gets no second one, and an absolute name replaces the path (`joinPath`).
-/

namespace ClusterSweep

/-- The path `name` below `dir`. -/
def joinPath (dir name : String) : String :=
  if name.startsWith "/" then name
  else if dir.isEmpty then name
  else if dir.endsWith "/" then dir ++ name
  else dir ++ "/" ++ name

/-- The files of one run: test `test` with `clients` clients in directory `dir`. -/
structure RunFiles where
  /-- The shape's result directory. -/
  dir : String
  /-- The test name. -/
  test : String
  /-- The number of clients. -/
  clients : Nat
  deriving DecidableEq, Repr

namespace RunFiles

/-- A file of the run: `TEST_clientN-WHO_SUFFIX`. -/
def file (r : RunFiles) (who suffix : String) : String :=
  joinPath r.dir (r.test ++ "_client" ++ toString r.clients ++ "-" ++ who ++ "_" ++ suffix)

/-- The latencies written by client `i`. -/
def latencies (r : RunFiles) (i : Nat) : String := r.file (toString i) "reqLatencies.dat"

/-- The execution summary written by client `i`. -/
def summary (r : RunFiles) (i : Nat) : String := r.file (toString i) "execSummary.dat"

/-- The percentile table of the whole run. -/
def cdf (r : RunFiles) : String := r.file "all" "reqLatencies.cdf"

/-- The throughput of the whole run. -/
def throughput (r : RunFiles) : String := r.file "all" "throughput.dat"

/-- The indices of the run's clients, `1 … N`. -/
def indices (r : RunFiles) : List Nat := (List.range r.clients).map (· + 1)

/-- The latency files of all clients, in client order. -/
def allLatencies (r : RunFiles) : List String := r.indices.map r.latencies

/-- The summaries of all clients, in client order. -/
def allSummaries (r : RunFiles) : List String := r.indices.map r.summary

end RunFiles

/-- The table of throughput against clients of test `test` in directory `dir`. -/
def throughputVsClients (dir test : String) : String :=
  joinPath dir (test ++ "_throughput_v_clients.dat")

end ClusterSweep
