import Mathlib
import ClusterSweep.Proofs.ClientFiles
import ClusterSweep.Proofs.RecordedSweep
import ClusterSweep.Proofs.ReduceAccounting
import ClusterSweep.Proofs.LayoutNames
import ClusterSweep.Proofs.QuotaOverflow
import ClusterSweep.Proofs.TableOrder
import ClusterSweep.Proofs.ReadsBeforeWriting

/-!
# Recording a sweep, then reducing it

A sweep recorded below a fresh output root (`Sweep.run_recorded`) leaves the directories of its
valid points and the files of the clients of its completed runs.  Reducing it then reads those files
back: every run of a valid point gives what `Sweep.recordedResult` says (`Recorded.reduceRun`),
an `Io` failure for a run that failed, no samples for clients that issued no requests, and the
run's operations per second otherwise.

A reduction runs alike on alike disks and leaves its disk alike to where it started
(`Reduction.reduce_keeps`), so every run is reduced, on whatever disk the runs before it left,
as it is on the recorded disk; a trace of the reduction is then fixed by the results of the runs
alone (`Reduction.testsReduced_of_results`).

Below a fresh root, every file the reduction creates goes to the place its path spells,
whatever the disk (`ResultFile.fileSlot_place`), and no two result files share a place.  So the
runs never touch a table's place (`Reduction.reduceRun_find?_table`), and a test's table is the
only write there: it ends holding the test's table when it has rows, and as the recording left
it, empty, otherwise (`Reduction.TestsReduced.find?_table`).  The rows are the same for every
test (`Sweep.recordedRows`).

`Sweep.sweep_then_reduce` puts the two together, under the assumptions `Sweep.Recordable`
gathers.  Among them, every path must fit, the files the reduction writes included: a test name
of 227 bytes leaves room for the files of its clients but not for its run's percentile table, and
that run's reduction fails (`Sweep.reduce_run_fails_on_long_test_name`).
-/

namespace ClusterSweep

open Disk Latency Throughput

/-! ## Reading client files -/

namespace Reduction

section Reading

variable {d : Disk}

/-- A latency file that cannot be read ends the reading with its error. -/
theorem readSamples_cons_of_error {path : String} {e : IoError} (h : d.readFile path = .error e)
    (rest : List String) : readSamples d (path :: rest) = .error (.io path e) := by
  simp [readSamples, h, Except.mapError, bind, Except.bind]

/-- A fold whose every step adds `q` values to what it holds. -/
theorem foldlM_append_eq_ok {q : ℕ} {paths : List String}
    {f : List Binary64 → String → Except ReduceError (List Binary64)}
    (hf : ∀ acc, ∀ path ∈ paths, ∃ ys, f acc path = .ok (acc ++ ys) ∧ ys.length = q) :
    ∀ acc, ∃ xs, paths.foldlM f acc = .ok (acc ++ xs) ∧ xs.length = paths.length * q := by
  induction paths with
  | nil => exact fun acc => ⟨[], by rw [List.foldlM_nil, List.append_nil]; rfl, by simp⟩
  | cons path rest ih =>
    intro acc
    obtain ⟨ys, hys, hlen⟩ := hf acc path (.head _)
    obtain ⟨xs, hxs, hxlen⟩ := ih (fun acc' path' hp' => hf acc' path' (.tail _ hp')) (acc ++ ys)
    refine ⟨ys ++ xs, ?_, ?_⟩
    · rw [List.foldlM_cons, hys]
      simp only [bind, Except.bind]
      simpa using hxs
    · simp [hlen, hxlen, Nat.succ_mul, Nat.add_comm]

/-- Latency files that all read and parse, `q` samples each, give all their samples. -/
theorem readSamples_eq_ok {q : ℕ} {paths : List String}
    (h : ∀ path ∈ paths, ∃ data ys, d.readFile path = .ok data ∧
      parseSamples path data = .ok ys ∧ ys.length = q) :
    ∃ xs, readSamples d paths = .ok xs ∧ xs.length = paths.length * q := by
  unfold readSamples
  simpa using foldlM_append_eq_ok (fun acc path hpath => by
    obtain ⟨data, ys, hread, hparse, hlen⟩ := h path hpath
    exact ⟨ys, by simp [hread, hparse, Except.mapError, bind, Except.bind], hlen⟩) []

/-- Execution summaries that all read and parse to the same summary give it once each. -/
theorem readSummaries_eq_ok {s : Summary} :
    ∀ {paths : List String}, (∀ path ∈ paths, ∃ data, d.readFile path = .ok data ∧
      Summary.parse path data = .ok s) →
    readSummaries d paths = .ok (List.replicate paths.length s)
  | [], _ => rfl
  | path :: rest, h => by
    obtain ⟨data, hread, hparse⟩ := h path (.head _)
    have hrest := readSummaries_eq_ok fun path' hp' => h path' (.tail _ hp')
    unfold readSummaries at hrest ⊢
    rw [List.mapM_cons, hrest]
    simp [hread, hparse, Except.mapError, bind, Except.bind, pure, Except.pure,
      List.replicate_succ]

/-- Latency files that fail to read end the reading of the run with their error. -/
theorem readRun_of_readSamples_error {f : RunFiles} {e : ReduceError}
    (h : readSamples d f.allLatencies = .error e) : readRun d f = .error e := by
  simp [readRun, h, bind, Except.bind]

/-- Latency files and summaries that all read give the table of the samples, with the
summaries. -/
theorem readRun_of_reads {f : RunFiles} {xs : List Binary64} {sums : List Summary}
    (hxs : readSamples d f.allLatencies = .ok xs)
    (hsums : readSummaries d f.allSummaries = .ok sums) :
    readRun d f = (PercentileTable.ofSamples xs).map (·, sums) := by
  unfold readRun
  rw [hxs, hsums]
  simp only [bind, Except.bind]
  cases PercentileTable.ofSamples xs <;> rfl

/-- A text written in a shape's directory below a fresh root, when the directory and every
directory on the way to it are there and no entry of it is a directory, lands at its place, and
the directory stays as it was. -/
theorem writeText_shapeEntry {root name : String} {σ : Shape} (hroot : FreshRoot d.host root)
    (hname : EntryName name) (hfit : Fits (joinPath (joinPath root σ.dirName) name))
    (hdirs : ∀ a, Stem a (components root ++ [σ.dirName]) → d.find? a = some .dir)
    (hnot : ∀ n, d.find? (components root ++ [σ.dirName, n]) ≠ some .dir) (text : String) :
    writeText d (joinPath (joinPath root σ.dirName) name) text =
        .ok (d.put (components root ++ [σ.dirName, name]) (.file text.toUTF8)) ∧
      (∀ a, Stem a (components root ++ [σ.dirName]) →
        (d.put (components root ++ [σ.dirName, name]) (.file text.toUTF8)).find? a = some .dir) ∧
      ∀ n, (d.put (components root ++ [σ.dirName, name]) (.file text.toUTF8)).find?
        (components root ++ [σ.dirName, n]) ≠ some .dir := by
  have hput := find?_put (hnot name) (.file text.toUTF8)
  refine ⟨?_, fun a ha => ?_, fun n => ?_⟩
  · rw [writeText_eq, fileSlot_shapeEntry hroot hname hfit hdirs (hnot name)]
  · rw [hput, if_neg (not_stem_entry ha)]
    exact hdirs a ha
  · rw [hput]
    split_ifs
    · simp
    · exact hnot n

end Reading

end Reduction

/-! ## Reducing a recorded run -/

namespace Sweep

variable (sw : Sweep)

/-- What reducing the run `f` gives after a recording that failed the runs of the client counts
`F`: the first client's latencies are missing from a run that failed, a run whose clients issued
no requests has no samples, and any other run executed all its operations, each client within
one second. -/
def recordedResult (F : List ℕ) (f : RunFiles) : Reduction.RunResult :=
  if f.clients ∈ F then .error (.io (f.latencies 1) .notFound)
  else if sw.options.ops.requests f.clients = 0 then .error .noSamples
  else .ok (Binary64.ofNat (f.clients * sw.options.ops.requests f.clients))

section Reads

variable {sw} {Ds : List Point} {W : List (Point × ℕ)} {D : Disk} {p : Point}

/-- A client file of a run of a point whose directory is made is read from its place in the
directory. -/
theorem Recorded.readFile_entry (hD : sw.Recorded Ds W D)
    (htest : '/' ∉ p.test.toList) (hp : p ∈ Ds)
    {i : ℕ} {s : String} (hs : s ∈ readSuffixes) (hfit : Fits ((sw.runOf p).file (toString i) s)) :
    D.readFile ((sw.runOf p).file (toString i) s) = readNode (D.find?
      (components sw.options.outputRoot ++ [p.shape.dirName, (sw.runOf p).entry (toString i) s])) := by
  rw [runOf_file] at hfit ⊢
  exact readFile_shapeEntry hD.fresh (RunFiles.entryName_entry htest (slash_not_mem_toString i)
    (List.mem_append_left _ hs)) hfit (hD.dir_made p hp)

/-- A client file of a recorded client reads back as the bytes it wrote. -/
theorem Recorded.readFile_client (hD : sw.Recorded Ds W D)
    (htest : '/' ∉ p.test.toList) (hp : p ∈ Ds)
    {i : ℕ} (hw : (p, i) ∈ W) {s : String} (hs : s ∈ readSuffixes)
    (hfit : Fits ((sw.runOf p).file (toString i) s)) {data : ByteArray}
    (hwr : sw.Writes p i ((sw.runOf p).entry (toString i) s) data) :
    D.readFile ((sw.runOf p).file (toString i) s) = .ok data := by
  rw [hD.readFile_entry htest hp hs hfit, hD.files_made (p, i) hw _ _ hwr]
  rfl

/-- A client file of a run no recorded client shares the count of is not there. -/
theorem Recorded.readFile_missing (hD : sw.Recorded Ds W D)
    (htest : '/' ∉ p.test.toList) (hp : p ∈ Ds)
    (hW : ∀ w ∈ W, w.1.clients ≠ p.clients) {i : ℕ} {s : String} (hs : s ∈ readSuffixes)
    (hfit : Fits ((sw.runOf p).file (toString i) s)) :
    D.readFile ((sw.runOf p).file (toString i) s) = .error .notFound := by
  rw [hD.readFile_entry htest hp hs hfit]
  -- a file there would have been written by a client of a run of the same count
  cases hf : D.find? (components sw.options.outputRoot ++
      [p.shape.dirName, (sw.runOf p).entry (toString i) s]) with
  | none => rfl
  | some n =>
    cases n with
    | dir => exact absurd hf (hD.entry_not_dir _ _)
    | file data =>
      obtain ⟨w, hw, hwr⟩ := hD.file_written _ _ _ hf
      exact absurd (hwr.clients_eq hs) (hW w hw)

end Reads

/-- The latency files of a run with clients, the first client's first. -/
theorem allLatencies_eq_cons {r : RunFiles} (hc : 0 < r.clients) :
    ∃ rest, r.allLatencies = r.latencies 1 :: rest := by
  obtain ⟨n, hn⟩ : ∃ n, r.clients = n + 1 := ⟨r.clients - 1, by omega⟩
  exact ⟨((List.range n).map fun k => k + 2).map r.latencies, by
    simp [RunFiles.allLatencies, RunFiles.indices, hn, List.range_succ_eq_map]⟩

section Results

variable {sw} {F : List ℕ} {Ds : List Point} {W : List (Point × ℕ)} {D : Disk} {p : Point}

/-- The run of a point whose count no recorded client shares fails on its first client's
latencies, which are missing. -/
theorem Recorded.readRun_missing (hD : sw.Recorded Ds W D)
    (htest : '/' ∉ p.test.toList) (hp : p ∈ Ds)
    (hfit : (sw.runOf p).ClientsFit) (hc : 0 < p.clients)
    (hW : ∀ w ∈ W, w.1.clients ≠ p.clients) :
    Reduction.readRun D (sw.runOf p) = .error (.io ((sw.runOf p).latencies 1) .notFound) := by
  have hone : 1 ∈ (sw.runOf p).indices := by
    simp only [RunFiles.indices, List.mem_map, List.mem_range]
    exact ⟨0, by simpa [runOf] using hc, rfl⟩
  obtain ⟨rest, hrest⟩ := allLatencies_eq_cons (r := sw.runOf p) hc
  apply Reduction.readRun_of_readSamples_error
  rw [hrest]
  exact Reduction.readSamples_cons_of_error
    (hD.readFile_missing htest hp hW latencies_mem_readSuffixes (hfit.latencies 1 hone)) rest

/-- The latency files of a run whose clients are all recorded read back, each with the requests
its client issued. -/
theorem Recorded.readSamples_done (hD : sw.Recorded Ds W D)
    (htest : '/' ∉ p.test.toList) (hp : p ∈ Ds)
    (hfit : (sw.runOf p).ClientsFit) (hdone : ∀ i ∈ (sw.runOf p).indices, (p, i) ∈ W) :
    ∃ xs, Reduction.readSamples D (sw.runOf p).allLatencies = .ok xs ∧
      xs.length = p.clients * sw.options.ops.requests p.clients := by
  obtain ⟨xs, hxs, hlen⟩ := Reduction.readSamples_eq_ok fun path hpath => by
    obtain ⟨i, hi, rfl⟩ := List.mem_map.1 hpath
    obtain ⟨ys, hys, hylen⟩ := parseSamples_latencyText ((sw.runOf p).latencies i) i
      (sw.options.ops.requests p.clients)
    exact ⟨_, ys, hD.readFile_client htest hp (hdone i hi) latencies_mem_readSuffixes
      (hfit.latencies i hi) (writes_latencies sw p i), hys, hylen⟩
  refine ⟨xs, hxs, ?_⟩
  rw [hlen]
  simp [RunFiles.indices, runOf]

/-- The summaries of a run whose clients are all recorded read back, each client's requests in
one second. -/
theorem Recorded.readSummaries_done (hD : sw.Recorded Ds W D)
    (htest : '/' ∉ p.test.toList) (hp : p ∈ Ds)
    (hfit : (sw.runOf p).ClientsFit) (hdone : ∀ i ∈ (sw.runOf p).indices, (p, i) ∈ W)
    (hreq : sw.options.ops.requests p.clients ≤ u64Max) :
    Reduction.readSummaries D (sw.runOf p).allSummaries =
      .ok (List.replicate p.clients ⟨Binary64.one, sw.options.ops.requests p.clients⟩) := by
  have hlen : (sw.runOf p).allSummaries.length = p.clients := by
    simp [RunFiles.allSummaries, RunFiles.indices, runOf]
  have hsums : Reduction.readSummaries D (sw.runOf p).allSummaries = .ok (List.replicate
      (sw.runOf p).allSummaries.length ⟨Binary64.one, sw.options.ops.requests p.clients⟩) :=
    Reduction.readSummaries_eq_ok fun path hpath => by
      obtain ⟨i, hi, rfl⟩ := List.mem_map.1 hpath
      exact ⟨_, hD.readFile_client htest hp (hdone i hi) summaries_mem_readSuffixes
        (hfit.summaries i hi) (writes_summaries sw p i), parse_summaryText _ hreq⟩
  rwa [hlen] at hsums

/-- The files of a run whose clients are all recorded and issued requests read back: a table
of their samples, and one summary for each client. -/
theorem Recorded.readRun_done (hD : sw.Recorded Ds W D)
    (htest : '/' ∉ p.test.toList) (hp : p ∈ Ds) (hfit : (sw.runOf p).ClientsFit)
    (hc : 0 < p.clients) (hreq : sw.options.ops.requests p.clients ≤ u64Max)
    (hdone : ∀ i ∈ (sw.runOf p).indices, (p, i) ∈ W) (hq : sw.options.ops.requests p.clients ≠ 0) :
    ∃ table, Reduction.readRun D (sw.runOf p) =
      .ok (table, List.replicate p.clients ⟨Binary64.one, sw.options.ops.requests p.clients⟩) := by
  obtain ⟨xs, hxs, hlen⟩ := hD.readSamples_done htest hp hfit hdone
  -- a sample for each request, so some
  obtain ⟨table, htable⟩ := Reduction.ofSamples_ok_of_ne_nil fun (hnil : xs = []) => by
    rw [hnil, List.length_nil] at hlen
    exact hq ((Nat.mul_eq_zero.1 hlen.symm).resolve_left hc.ne')
  refine ⟨table, ?_⟩
  rw [Reduction.readRun_of_reads hxs (hD.readSummaries_done htest hp hfit hdone hreq), htable]
  rfl

/-- Both result files of the run of a point whose directory is made can be written, whatever
they hold. -/
theorem Recorded.writeText_results (hD : sw.Recorded Ds W D)
    (htest : '/' ∉ p.test.toList) (hp : p ∈ Ds)
    (hfit : (sw.runOf p).Fit) (a b : String) :
    ∃ d₁ d₂, Reduction.writeText D (sw.runOf p).cdf a = .ok d₁ ∧
      Reduction.writeText d₁ (sw.runOf p).throughput b = .ok d₂ := by
  have hcdf := hfit.cdf
  have hthroughput := hfit.throughput
  rw [RunFiles.cdf, runOf_file] at hcdf ⊢
  rw [RunFiles.throughput, runOf_file] at hthroughput ⊢
  obtain ⟨hcdf, hdirs₁, hnot₁⟩ := Reduction.writeText_shapeEntry hD.fresh
    (RunFiles.entryName_all htest (by decide)) hcdf (hD.dir_made p hp)
    (hD.entry_not_dir p.shape) a
  obtain ⟨hthroughput, -, -⟩ := Reduction.writeText_shapeEntry (d := D.put _ _) hD.fresh
    (RunFiles.entryName_all htest (by decide)) hthroughput hdirs₁ hnot₁ b
  exact ⟨_, _, hcdf, hthroughput⟩

/-- Reducing the run of a recorded valid point gives what `recordedResult` says: the files of a
run that failed are missing, and those of one that completed read back as its clients wrote them,
a sample for each request and one summary for each client. -/
theorem Recorded.reduceRun (hD : sw.Recorded Ds W D) (htest : '/' ∉ p.test.toList) (hp : p ∈ Ds) (hfit : (sw.runOf p).Fit) (hc : 0 < p.clients)
    (hreq : sw.options.ops.requests p.clients ≤ u64Max)
    (hsum : p.clients * sw.options.ops.requests p.clients ≤ u64Max)
    (hdone : p.clients ∉ F → ∀ i ∈ (sw.runOf p).indices, (p, i) ∈ W)
    (hfailed : p.clients ∈ F → ∀ w ∈ W, w.1.clients ≠ p.clients) :
    ((Reduction.reduceRun (sw.runOf p)).runFrom D).1 = .ok (sw.recordedResult F (sw.runOf p)) := by
  rw [Reduction.reduceRun_runFrom]
  by_cases hF : p.clients ∈ F
  · rw [hD.readRun_missing htest hp hfit.toClientsFit hc (hfailed hF)]
    simp [recordedResult, runOf, hF]
  by_cases hq : sw.options.ops.requests p.clients = 0
  · -- no requests, no samples
    obtain ⟨xs, hxs, hlen⟩ := hD.readSamples_done htest hp hfit.toClientsFit (hdone hF)
    obtain rfl : xs = [] := List.eq_nil_of_length_eq_zero (by rw [hlen, hq, Nat.mul_zero])
    rw [Reduction.readRun_of_reads hxs
      (hD.readSummaries_done htest hp hfit.toClientsFit (hdone hF) hreq)]
    simp [PercentileTable.ofSamples, Except.map, recordedResult, runOf, hF, hq]
  -- the samples make a table, and both result files are written
  obtain ⟨table, hread⟩ := hD.readRun_done htest hp hfit.toClientsFit hc hreq (hdone hF) hq
  obtain ⟨d₁, d₂, hcdf, hthroughput⟩ := hD.writeText_results htest hp hfit table.text
    (Binary64.fixedText 2 (Binary64.ofNat (p.clients * sw.options.ops.requests p.clients)) ++ "\n")
  simp only [hread, aggregate_replicate hc hsum, hcdf, hthroughput]
  simp [recordedResult, runOf, hF, hq]

/-- The run of a recorded valid point that completed with requests fails when the name of its
percentile table is longer than `nameMax` bytes: it reads back, and the table cannot be
written. -/
theorem Recorded.reduceRun_long_cdf (hD : sw.Recorded Ds W D) (htest : '/' ∉ p.test.toList)
    (hp : p ∈ Ds) (hfit : (sw.runOf p).ClientsFit) (hc : 0 < p.clients)
    (hreq : sw.options.ops.requests p.clients ≤ u64Max)
    (hsum : p.clients * sw.options.ops.requests p.clients ≤ u64Max)
    (hdone : ∀ i ∈ (sw.runOf p).indices, (p, i) ∈ W) (hq : sw.options.ops.requests p.clients ≠ 0)
    (hcheck : checkPath (sw.runOf p).cdf = .ok ())
    (hlong : nameMax < ((sw.runOf p).entry "all" "reqLatencies.cdf").utf8ByteSize) :
    ((Reduction.reduceRun (sw.runOf p)).runFrom D).1 =
      .ok (.error (.io (sw.runOf p).cdf .nameTooLong)) := by
  obtain ⟨table, hread⟩ := hD.readRun_done htest hp hfit hc hreq hdone hq
  have hslot : D.fileSlot (sw.runOf p).cdf = .error .nameTooLong := by
    rw [RunFiles.cdf, runOf_file] at hcheck ⊢
    exact fileSlot_shapeEntry_long hD.fresh (RunFiles.entryName_all htest (by decide))
      hcheck (runOf_dir sw p ▸ hfit.dir) (hD.dir_made p hp) hlong
  have hcdf : Reduction.writeText D (sw.runOf p).cdf table.text =
      .error (.io (sw.runOf p).cdf .nameTooLong) := by
    rw [Reduction.writeText, createFile_eq, hslot]
    rfl
  rw [Reduction.reduceRun_runFrom]
  simp only [hread, aggregate_replicate hc hsum, hcdf]

end Results

end Sweep

/-! ## A reduction fixed by the results of its runs -/

namespace Reduction

/-- The record of a test whose every run gives `E f`: the runs of its client counts in order, each
with its result, and its table written exactly when it has rows. -/
def TestRecord.ofResults (clients : List ℕ) (E : RunFiles → RunResult) (g : String × String) :
    TestRecord :=
  ⟨g.1, g.2, clients.map fun c => (⟨g.1, g.2, c⟩, E ⟨g.1, g.2, c⟩),
    if rowsOf (clients.map fun c => (⟨g.1, g.2, c⟩, E ⟨g.1, g.2, c⟩)) = [] then none
    else some (.ok ())⟩

section Traces

variable {O : List String → Prop} {D : Disk} {E : RunFiles → RunResult}

/-- Runs that each give `E f` on the disk `D` give it one after the other from any disk alike to
`D`: a run reads only what `O` holds, and leaves it as it was.  Induction on the trace. -/
theorem runsReduced_of_results {fs : List RunFiles} {d d' : Disk}
    {rs : List (RunFiles × RunResult)} {stop : Option Overflow} (h : RunsReduced fs d rs stop d')
    (hA : Alike O D d)
    (hf : ∀ f ∈ fs, RunWithin D.host O f ∧ ((reduceRun f).runFrom D).1 = .ok (E f)) :
    stop = none ∧ rs = fs.map (fun f => (f, E f)) ∧ Alike O D d' := by
  induction h with
  | nil d => exact ⟨rfl, rfl, hA⟩
  | @stop f fs d d' o hrun =>
    obtain ⟨hwithin, hres⟩ := hf f (.head _)
    have hsame := (reduceRun_replays hwithin D d rfl hA).1
    rw [hres, hrun] at hsame
    exact absurd hsame (by simp)
  | @cons f fs d d₁ d' r rs stop hrun rest ih =>
    obtain ⟨hwithin, hres⟩ := hf f (.head _)
    have hsame := (reduceRun_replays hwithin D d rfl hA).1
    rw [hres, hrun] at hsame
    have hkeep := reduceRun_keeps hwithin d hA.host
    rw [hrun] at hkeep
    obtain ⟨hstop, hrs, hA'⟩ := ih (hA.trans hkeep) fun f' hf' => hf f' (.tail _ hf')
    obtain rfl : E f = r := by simpa using hsame
    exact ⟨hstop, by rw [hrs, List.map_cons], hA'⟩

/-- Tests whose runs each give `E f` on the disk `D`, and whose tables can be written there when
they have runs, are reduced from any disk alike to `D` as `TestRecord.ofResults` records them,
without an overflow.  Induction on the trace: each test's runs by `runsReduced_of_results`, then
its table, written where it would be on `D`. -/
theorem testsReduced_of_results {clients : List ℕ} {gs : List (String × String)} {d d' : Disk}
    {recs : List TestRecord} {stop : Option Overflow} (h : TestsReduced clients gs d recs stop d')
    (hA : Alike O D d)
    (hruns : ∀ g ∈ gs, ∀ c ∈ clients, RunWithin D.host O ⟨g.1, g.2, c⟩ ∧
      ((reduceRun ⟨g.1, g.2, c⟩).runFrom D).1 = .ok (E ⟨g.1, g.2, c⟩))
    (htables : ∀ g ∈ gs, WritesOutside D.host O (throughputVsClients g.1 g.2) ∧
      (clients ≠ [] → ∃ p, D.fileSlot (throughputVsClients g.1 g.2) = .ok p)) :
    stop = none ∧ recs = gs.map (TestRecord.ofResults clients E) ∧ Alike O D d' := by
  have hfiles : ∀ g ∈ gs, ∀ f ∈ clients.map (RunFiles.mk g.1 g.2),
      RunWithin D.host O f ∧ ((reduceRun f).runFrom D).1 = .ok (E f) := by
    intro g hg f hf
    obtain ⟨c, hc, rfl⟩ := List.mem_map.1 hf
    exact hruns g hg c hc
  induction h with
  | nil d => exact ⟨rfl, rfl, hA⟩
  | @stop g gs d d' rs o hruns' =>
    obtain ⟨hstop, -, -⟩ := runsReduced_of_results hruns' hA (hfiles g (.head _))
    exact absurd hstop (by simp)
  | @cons g gs d d₁ d₂ d' rs w recs stop hruns' hfin rest ih =>
    obtain ⟨-, hrs, hA₁⟩ := runsReduced_of_results hruns' hA (hfiles g (.head _))
    obtain ⟨hout, hslot⟩ := htables g (.head _)
    -- the table is written when it has rows, and the write goes where it goes on `D`
    have hfinished : w = (if rowsOf rs = [] then none else some (.ok ())) ∧ Alike O D d₂ := by
      cases hfin with
      | empty hrows => exact ⟨by simp [hrows], hA₁⟩
      | written hrows hwrite =>
        exact ⟨by simp [hrows], hA₁.trans (writeText_keeps (hA₁.host ▸ hout) hwrite)⟩
      | failed hrows hwrite =>
        -- a table with rows belongs to a test with runs
        have hclients : clients ≠ [] := by
          rintro rfl
          simp [hrs, rowsOf] at hrows
        obtain ⟨p, hslot⟩ := hslot hclients
        have hslot₁ : d₁.fileSlot (throughputVsClients g.1 g.2) = .ok p := by
          rw [← hA₁.fileSlot_eq hout.1 hout.2.1]
          exact hslot
        rw [writeText_eq, hslot₁] at hwrite
        exact absurd hwrite (by simp)
    obtain ⟨hstop, hrecs, hA'⟩ := ih hfinished.2 (fun g' hg' => hruns g' (.tail _ hg'))
      (fun g' hg' => htables g' (.tail _ hg')) (fun g' hg' => hfiles g' (.tail _ hg'))
    refine ⟨hstop, ?_, hA'⟩
    rw [hrecs, hfinished.1, hrs, List.map_map, List.map_cons]
    rfl

end Traces

end Reduction

/-! ## Where a reduction writes -/

namespace ResultFile

variable {root : String}

/-- Whatever the disk, a result file created in a shape's directory below a fresh root goes to
the place its path spells. -/
theorem fileSlot_place {h : Host.System} (hroot : FreshRoot h root) (σ : Shape) {f : ResultFile}
    (htest : '/' ∉ f.test.toList) {d : Disk} (hdh : d.host = h) {p : List String}
    (hslot : d.fileSlot (f.path (joinPath root σ.dirName)) = .ok p) :
    p = components root ++ [σ.dirName, f.name] := by
  obtain ⟨-, -, hd₃, hd₄⟩ := Reduction.ne_of_two_lt_length σ.dirName_plain.2.1
  obtain ⟨-, -, hn₃, hn₄⟩ := Reduction.ne_of_two_lt_length (two_lt_length_name f)
  have hrest : ∀ c ∈ [σ.dirName, f.name], c ≠ "/" ∧ c ≠ ".." := fun c hc => by
    rcases List.mem_pair.1 hc with rfl | rfl
    · exact ⟨hd₄, hd₃⟩
    · exact ⟨hn₄, hn₃⟩
  rw [(fileSlot_eq_ok hslot).1, components_path _ htest, components_shapeDir, List.append_assoc,
    List.singleton_append, hdh]
  exact reach_direct (hroot.direct hrest)

/-- Two result files of shape directories below one root share a place only when they are one
file of one directory. -/
theorem place_inj {R : List String} {σ σ' : Shape} {f g : ResultFile}
    (h : R ++ [σ.dirName, f.name] = R ++ [σ'.dirName, g.name]) : σ.dirName = σ'.dirName ∧ f = g := by
  obtain ⟨hdir, hname⟩ := entry_place_inj h
  exact ⟨hdir, name_injective hname⟩

end ResultFile

namespace Reduction

section Tables

variable {O : List String → Prop} {P : List String}

/-- A text written at a path is found at the path's place, and nothing else changes. -/
theorem find?_writeText {d d' : Disk} {path text : String} (h : writeText d path text = .ok d') :
    ∃ p, d.fileSlot path = .ok p ∧
      ∀ q, d'.find? q = if q = p then some (.file text.toUTF8) else d.find? q := by
  rw [writeText_eq] at h
  cases hp : d.fileSlot path with
  | error e => simp [hp] at h
  | ok p =>
    simp only [hp, Except.ok.injEq] at h
    subst h
    exact ⟨p, rfl, find?_put (fileSlot_eq_ok hp).2.2 _⟩

theorem WritesOutside.or_eq {h : Host.System} {path : String} (hw : WritesOutside h O path)
    (hP : ∀ (d : Disk) p, d.host = h → d.fileSlot path = .ok p → p ≠ P) :
    WritesOutside h (fun q => O q ∨ q = P) path := by
  refine ⟨fun q hq => .inl (hw.1 q hq), hw.2.1, fun d p hdh hp => ?_⟩
  rintro (hO | rfl)
  · exact hw.2.2 d p hdh hp hO
  · exact hP d p hdh hp rfl

/-- A run that writes neither of its files at `P` reduces within `O` and `P`. -/
theorem RunWithin.or_eq {h : Host.System} {f : RunFiles} (hf : RunWithin h O f)
    (hcdf : ∀ (d : Disk) p, d.host = h → d.fileSlot f.cdf = .ok p → p ≠ P)
    (hthroughput : ∀ (d : Disk) p, d.host = h → d.fileSlot f.throughput = .ok p → p ≠ P) :
    RunWithin h (fun q => O q ∨ q = P) f :=
  ⟨fun path hpath => ⟨fun q hq => .inl ((hf.reads path hpath).1 q hq),
    .inl (hf.reads path hpath).2⟩, hf.cdf.or_eq hcdf, hf.throughput.or_eq hthroughput⟩

/-- Reducing a run of a shape's directory below a fresh root leaves the place of every test's
table as it was: the run writes only its percentile table and its throughput, files of other
names. -/
theorem reduceRun_find?_table {h : Host.System} {root : String} (hroot : FreshRoot h root)
    {σ σ' : Shape} {t t' : String} (ht' : '/' ∉ t'.toList) (c : ℕ) {d : Disk} (hdh : d.host = h) :
    ((reduceRun ⟨joinPath root σ'.dirName, t', c⟩).runFrom d).2.find?
        (components root ++ [σ.dirName, t ++ "_throughput_v_clients.dat"]) =
      d.find? (components root ++ [σ.dirName, t ++ "_throughput_v_clients.dat"]) := by
  set P := components root ++ [σ.dirName, (ResultFile.vsClients t).name]
  have hapart : ∀ f : ResultFile, f.test = t' → f ≠ .vsClients t → ∀ (d : Disk) p, d.host = h →
      d.fileSlot (f.path (joinPath root σ'.dirName)) = .ok p → p ≠ P := by
    intro f hf hne d p hdh hp hpP
    rw [ResultFile.fileSlot_place hroot σ' (hf ▸ ht') hdh hp] at hpP
    exact hne (ResultFile.place_inj hpP).2
  have hwithin := (testDir_within hroot.namesKept (σ := σ') ht' c).or_eq (P := P)
    (hapart (.cdf t' c) rfl (by simp)) (hapart (.throughput t' c) rfl (by simp))
  exact ((reduceRun_keeps hwithin d hdh).agree P (.inr rfl)).symm

/-- Runs reduced one after the other change no host. -/
theorem RunsReduced.host_eq {fs : List RunFiles} {d d' : Disk} {rs : List (RunFiles × RunResult)}
    {stop : Option Overflow} (h : RunsReduced fs d rs stop d') : d'.host = d.host := by
  induction h with
  | nil => rfl
  | @stop f fs d d' o hrun =>
    have h₁ := reduceRun_host f d
    rwa [hrun] at h₁
  | @cons f fs d d₁ d' r rs stop hrun rest ih =>
    have h₁ := reduceRun_host f d
    rw [hrun] at h₁
    exact ih.trans h₁

/-- Finishing a test changes no host. -/
theorem Finished.host_eq {dir test : String} {rows : List Row} {d d' : Disk}
    {w : Option (Except ReduceError Unit)} (h : Finished dir test rows d w d') :
    d'.host = d.host := by
  cases h with
  | empty => rfl
  | written _ hw => exact writeText_host hw
  | failed => rfl

/-- Runs that each leave the place `P` as it was, on disks of the host `H`, leave it so one after
the other. -/
theorem RunsReduced.find?_eq {H : Host.System} {fs : List RunFiles} {d d' : Disk}
    {rs : List (RunFiles × RunResult)} {stop : Option Overflow} (h : RunsReduced fs d rs stop d')
    (hd : d.host = H)
    (hP : ∀ f ∈ fs, ∀ d : Disk, d.host = H → ((reduceRun f).runFrom d).2.find? P = d.find? P) :
    d'.find? P = d.find? P := by
  induction h with
  | nil => rfl
  | @stop f fs d d' o hrun =>
    have h₁ := hP f (.head _) d hd
    rwa [hrun] at h₁
  | @cons f fs d d₁ d' r rs stop hrun rest ih =>
    have h₁ := hP f (.head _) d hd
    have hhost := reduceRun_host f d
    rw [hrun] at h₁ hhost
    rw [ih (hhost.trans hd) fun f' hf' => hP f' (.tail _ hf')]
    exact h₁

variable {E : RunFiles → RunResult}

/-- The place `P` of the table of the test `g₀`, where no run writes and no other test's table
goes: once the tests `gs` are reduced with the results `E`, it holds the table of `g₀` if `g₀` is
among them and has rows, and what it held before otherwise.  Induction on the trace; each time
`g₀` comes, it writes the same table. -/
theorem TestsReduced.find?_table {H : Host.System} {clients : List ℕ}
    {gs : List (String × String)} {d d' : Disk} {recs : List TestRecord} {stop : Option Overflow}
    (h : TestsReduced clients gs d recs stop d') (hd : d.host = H)
    (hrecs : recs = gs.map (TestRecord.ofResults clients E)) {g₀ : String × String}
    (hruns : ∀ g ∈ gs, ∀ c ∈ clients, ∀ d : Disk, d.host = H →
      ((reduceRun ⟨g.1, g.2, c⟩).runFrom d).2.find? P = d.find? P)
    (hplace : ∀ g ∈ gs, ∀ (d : Disk) p, d.host = H →
      d.fileSlot (throughputVsClients g.1 g.2) = .ok p → (p = P ↔ g = g₀)) :
    d'.find? P =
      if g₀ ∈ gs ∧ rowsOf (TestRecord.ofResults clients E g₀).results ≠ [] then
        some (.file (TestRecord.ofResults clients E g₀).table.text.toUTF8)
      else d.find? P := by
  induction h with
  | nil d => simp
  | stop => simp at hrecs
  | @cons g gs d d₁ d₂ d' rs w recs stop hruns' hfin rest ih =>
    simp only [List.map_cons, List.cons.injEq] at hrecs
    obtain ⟨hrec, hrecs⟩ := hrecs
    have hw : w = (TestRecord.ofResults clients E g).written := by rw [← hrec]
    obtain rfl : rs = (TestRecord.ofResults clients E g).results := by rw [← hrec]
    have h₁ : d₁.find? P = d.find? P := hruns'.find?_eq hd fun f hf => by
      obtain ⟨c, hc, rfl⟩ := List.mem_map.1 hf
      exact hruns g (.head _) c hc
    have hd₁ : d₁.host = H := hruns'.host_eq.trans hd
    -- finishing `g` writes its table at `P` exactly when `g` is `g₀`
    have h₂ : d₂.find? P =
        if g = g₀ ∧ rowsOf (TestRecord.ofResults clients E g).results ≠ [] then
          some (.file (TestRecord.ofResults clients E g₀).table.text.toUTF8) else d.find? P := by
      cases hfin with
      | empty hrows => simp [hrows, h₁]
      | written hrows hwrite =>
        obtain ⟨p, hp, hfind⟩ := find?_writeText hwrite
        have hiff := hplace g (.head _) _ p hd₁ hp
        rw [hfind]
        by_cases hg : g = g₀
        · subst hg
          simp [hiff.2 rfl, hrows, TestRecord.table]
        · have hne : P ≠ p := fun hPp => hg (hiff.1 hPp.symm)
          simp [hg, hne, h₁]
      | failed =>
        -- the record of a test has its table written or has no table
        simp [TestRecord.ofResults] at hw
    rw [ih (hfin.host_eq.trans hd₁) hrecs (fun g' hg' => hruns g' (.tail _ hg'))
      (fun g' hg' => hplace g' (.tail _ hg')), h₂]
    by_cases hg : g = g₀
    · subst hg
      by_cases hrows : rowsOf (TestRecord.ofResults clients E g).results = [] <;> simp [hrows]
    · have hg' : g₀ ≠ g := Ne.symm hg
      simp [hg, hg']

end Tables

/-- Below a fresh root, a test's table goes to the place of the table of `t` in the
directory of `σ` exactly when it is that test. -/
theorem fileSlot_table_eq_iff {S : Space} {h : Host.System} {root : String}
    (hroot : FreshRoot h root) (htests : ∀ t ∈ S.tests, '/' ∉ t.toList) {g : String × String}
    (hg : g ∈ testDirs S root) {σ : Shape} {t : String} {d : Disk} (hdh : d.host = h)
    {p : List String} (hp : d.fileSlot (throughputVsClients g.1 g.2) = .ok p) :
    p = components root ++ [σ.dirName, t ++ "_throughput_v_clients.dat"] ↔
      g = (joinPath root σ.dirName, t) := by
  obtain ⟨σ', -, -, t', ht', rfl⟩ := mem_testDirs_iff.1 hg
  dsimp only at hp
  constructor
  · intro hpP
    have hp' := ResultFile.fileSlot_place hroot σ' (f := .vsClients t') (htests t' ht') hdh hp
    obtain ⟨hdir, hf⟩ := @ResultFile.place_inj (components root) σ' σ (.vsClients t')
      (.vsClients t) (hp'.symm.trans hpP)
    simp only [ResultFile.vsClients.injEq] at hf
    rw [hdir, hf]
  · intro hg
    simp only [Prod.mk.injEq] at hg
    obtain ⟨hdir, rfl⟩ := hg
    rw [hdir] at hp
    exact ResultFile.fileSlot_place hroot σ (f := .vsClients t') (htests t' ht') hdh hp

end Reduction

/-! ## A recorded sweep, reduced -/

namespace OpsTarget

/-- When the target's own count fits a 64-bit word, so do the requests of each client of a run
whose quota fits, and the operations of all its clients. -/
theorem requests_le {ops : OpsTarget} (hops : ∀ T, ops = .total T → T ≤ u64Max) {c : ℕ}
    (hc : 0 < c) {q : Quota} (hq : ops.quota c = .ok q) :
    ops.requests c ≤ u64Max ∧ c * ops.requests c ≤ u64Max := by
  cases ops with
  | total T =>
    have hT := hops T rfl
    -- the clients share the total, the remainder dropped
    have hshare : c * (T / c) ≤ T := Nat.mul_div_le T c
    exact ⟨(Nat.div_le_self T c).trans hT, hshare.trans hT⟩
  | perClient p =>
    obtain ⟨hle, -⟩ := quota_perClient_eq_ok_iff.1 hq
    have hp : p ≤ p * c := Nat.le_mul_of_pos_right p hc
    exact ⟨hp.trans hle, by rw [Nat.mul_comm]; exact hle⟩

end OpsTarget

namespace Sweep

variable (sw : Sweep)

/-- What recording a sweep on the host `host` and reducing it back need: a fresh output root,
tests without `/`, no zero client count, an operation target and quotas that fit 64-bit words,
and paths of the valid points' runs that the system accepts, those of the files a reduction
writes included. -/
structure Recordable (host : Host.System) : Prop where
  root : FreshRoot host sw.options.outputRoot
  tests : ∀ t ∈ sw.space.tests, '/' ∉ t.toList
  /-- Client counts are nonzero 32-bit numbers. -/
  clients : ∀ c ∈ sw.space.clients, 0 < c
  /-- A shared total is a 64-bit number. -/
  total : ∀ T, sw.options.ops = .total T → T ≤ u64Max
  quotas : sw.QuotasFit
  /-- The clients' files, the run's two results and the test's table all fit. -/
  fit : ∀ p ∈ sw.space.points, p.shape.validate = none → (sw.runOf p).Fit

/-- The rows of every test's throughput table after a recording that failed the runs of the client
counts `F`: one for each count outside `F` whose clients issue requests, in the order of the
counts, with the operations per second of all the run's clients. -/
def recordedRows (F : List ℕ) : List Row :=
  (sw.space.clients.filter fun c => c ∉ F ∧ sw.options.ops.requests c ≠ 0).map fun c =>
    ⟨c, Binary64.ofNat (c * sw.options.ops.requests c)⟩

theorem rowsOf_recordedResults (F : List ℕ) (g : String × String) :
    Reduction.rowsOf
        (Reduction.TestRecord.ofResults sw.space.clients (sw.recordedResult F) g).results =
      sw.recordedRows F := by
  unfold recordedRows Reduction.TestRecord.ofResults
  generalize sw.space.clients = cs
  induction cs with
  | nil => rfl
  | cons c cs ih =>
    by_cases hF : c ∈ F <;> by_cases hq : sw.options.ops.requests c = 0 <;>
      simp_all [Reduction.rowsOf, Reduction.rowOf, recordedResult]

/-- A recording reports the points that break a rule as skipped, the valid points of a count of
`F` as failed, and the other valid points as completed. -/
theorem recordedReport_counts (F : List ℕ) (ps : List Point) :
    (⟨ps.map fun p => (p, recordedOutcome F p)⟩ : SweepReport).skipped =
        ps.countP (·.shape.validate.isSome) ∧
      (⟨ps.map fun p => (p, recordedOutcome F p)⟩ : SweepReport).failed =
        ps.countP (fun p => p.shape.validate.isNone ∧ p.clients ∈ F) ∧
      (⟨ps.map fun p => (p, recordedOutcome F p)⟩ : SweepReport).completed =
        ps.countP (fun p => p.shape.validate.isNone ∧ p.clients ∉ F) := by
  simp only [SweepReport.skipped, SweepReport.failed, SweepReport.completed, List.countP_map]
  -- each point is counted by its outcome, which its shape and its count decide
  refine ⟨?_, ?_, ?_⟩ <;> congr 1 <;> funext p <;>
    cases hv : p.shape.validate <;> by_cases hF : p.clients ∈ F <;> simp [recordedOutcome, hv, hF]

section Recorded

variable {sw} {F : List ℕ} {D : Disk}

/-- No table lies in a recorded shape directory: the clients write only their own files. -/
theorem Recorded.find?_table {Ds : List Point} {W : List (Point × ℕ)} (hD : sw.Recorded Ds W D)
    (σ : Shape) (t : String) :
    D.find? (components sw.options.outputRoot ++ [σ.dirName, t ++ "_throughput_v_clients.dat"]) =
      none := by
  cases hf : D.find? (components sw.options.outputRoot ++
      [σ.dirName, t ++ "_throughput_v_clients.dat"]) with
  | none => rfl
  | some n =>
    cases n with
    | dir => exact absurd hf (hD.entry_not_dir σ _)
    | file data =>
      obtain ⟨w, -, hw⟩ := hD.file_written σ _ data hf
      exact absurd rfl (hw.ne_written (x := t) (.tail _ (.tail _ (.head _))))

variable {host : Host.System} (h : sw.Recordable host)
  (hD : sw.Recorded (sw.space.points.filter fun p => p.shape.validate.isNone)
    (sw.completedClients F sw.space.points) D)
include h hD

/-- On the disk a recording left, the run of every valid point reduces as `recordedResult` says. -/
theorem Recordable.reduceRun {p : Point} (hp : p ∈ sw.space.points) (hv : p.shape.validate = none) :
    ((Reduction.reduceRun (sw.runOf p)).runFrom D).1 = .ok (sw.recordedResult F (sw.runOf p)) := by
  obtain ⟨-, ht, hc⟩ := Space.mem_points.1 hp
  obtain ⟨q, hquota⟩ := h.quotas p hp hv
  obtain ⟨hreq, hsum⟩ := OpsTarget.requests_le h.total (h.clients _ hc) hquota
  refine hD.reduceRun (h.tests _ ht) (List.mem_filter.2 ⟨hp, by simp [hv]⟩) (h.fit p hp hv)
    (h.clients _ hc) hreq hsum (fun hF i hi => ?_) (fun hF w hw => ?_)
  · -- every client of a run that completed wrote its files
    simp only [completedClients, List.mem_flatMap]
    exact ⟨p, hp, by simp [hv, hF, hi]⟩
  · -- no client of a count of `F` wrote
    obtain ⟨p', -, hw'⟩ := List.mem_flatMap.1 hw
    split_ifs at hw' with h'
    · obtain ⟨i, -, rfl⟩ := List.mem_map.1 hw'
      exact fun heq => h'.2 (heq ▸ hF)
    · simp at hw'

/-- Reducing the disk a recording left: the report records every run as `recordedResult` says,
and the table of every test of a valid shape holds the recorded rows, or is not there when they
are none. -/
theorem Recordable.reduce :
    ∃ D', (Reduction.reduce sw.space sw.options.outputRoot).runFrom D =
        (.ok (Reduction.reportOf ((Reduction.testDirs sw.space sw.options.outputRoot).map
          (Reduction.TestRecord.ofResults sw.space.clients (sw.recordedResult F)))), D') ∧
      ∀ σ ∈ sw.space.shapes, σ.validate = none → ∀ t ∈ sw.space.tests,
        D'.find? (components sw.options.outputRoot ++ [σ.dirName, t ++ "_throughput_v_clients.dat"]) =
          if sw.recordedRows F = [] then none
          else some (.file (Table.ofRows (sw.recordedRows F)).text.toUTF8) := by
  obtain ⟨recs, stop, D', htr, hred, -, -⟩ :=
    Reduction.reduce_accounts_every_run sw.space sw.options.outputRoot D
  -- every run reads the recorded files, and every table can be written next to its runs
  have hruns : ∀ g ∈ Reduction.testDirs sw.space sw.options.outputRoot, ∀ c ∈ sw.space.clients,
      Reduction.RunWithin D.host (Reduction.Observed D.host sw.options.outputRoot)
          ⟨g.1, g.2, c⟩ ∧
        ((Reduction.reduceRun ⟨g.1, g.2, c⟩).runFrom D).1 =
          .ok (sw.recordedResult F ⟨g.1, g.2, c⟩) := by
    intro g hg c hc
    obtain ⟨σ, hσ, hv, t, ht, rfl⟩ := Reduction.mem_testDirs_iff.1 hg
    dsimp only
    exact ⟨Reduction.testDir_within hD.fresh.namesKept (h.tests t ht) c,
      h.reduceRun hD (p := ⟨σ, t, c⟩) (Space.mem_points.2 ⟨hσ, ht, hc⟩) hv⟩
  have htables : ∀ g ∈ Reduction.testDirs sw.space sw.options.outputRoot,
      Reduction.WritesOutside D.host (Reduction.Observed D.host sw.options.outputRoot)
          (throughputVsClients g.1 g.2) ∧
        (sw.space.clients ≠ [] → ∃ p, D.fileSlot (throughputVsClients g.1 g.2) = .ok p) := by
    intro g hg
    obtain ⟨σ, hσ, hv, t, ht, rfl⟩ := Reduction.mem_testDirs_iff.1 hg
    dsimp only
    refine ⟨Reduction.throughputVsClients_writesOutside hD.fresh.namesKept (h.tests t ht),
      fun hne => ?_⟩
    obtain ⟨c, hc⟩ := List.exists_mem_of_ne_nil _ hne
    have hp : (⟨σ, t, c⟩ : Point) ∈ sw.space.points := Space.mem_points.2 ⟨hσ, ht, hc⟩
    have hdirs := hD.dir_made ⟨σ, t, c⟩ (List.mem_filter.2 ⟨hp, by simp [hv]⟩)
    exact ⟨_, fileSlot_shapeEntry hD.fresh (entryName_table (h.tests t ht)) (h.fit _ hp hv).table
      hdirs (hD.entry_not_dir σ _)⟩
  obtain ⟨rfl, hrecs, -⟩ := Reduction.testsReduced_of_results htr (Alike.refl _ D) hruns htables
  refine ⟨D', by rw [hred, hrecs]; rfl, fun σ hσ hv t ht => ?_⟩
  -- the table of `t` in the directory of `σ` is the only write at its place
  have hmem : (joinPath sw.options.outputRoot σ.dirName, t) ∈
      Reduction.testDirs sw.space sw.options.outputRoot :=
    Reduction.mem_testDirs_iff.2 ⟨σ, hσ, hv, t, ht, rfl⟩
  have htab := htr.find?_table rfl hrecs
    (P := components sw.options.outputRoot ++ [σ.dirName, t ++ "_throughput_v_clients.dat"])
    (fun g hg c _ d hd => by
      obtain ⟨σ', -, -, t', ht', rfl⟩ := Reduction.mem_testDirs_iff.1 hg
      dsimp only
      exact Reduction.reduceRun_find?_table hD.fresh (h.tests t' ht') c hd)
    fun g hg d p hd hp => Reduction.fileSlot_table_eq_iff hD.fresh h.tests hg hd hp
  rw [htab, hD.find?_table σ t]
  by_cases hrows : sw.recordedRows F = [] <;>
    simp [hmem, hrows, Reduction.TestRecord.table, rowsOf_recordedResults]

end Recorded

/-- A sweep recorded by the recording runner on a host below a fresh output root, where the program
has created nothing yet, the runner failing the runs of the client counts `F` and letting every
other run's clients write their results, and then reduced.  The
recording reports the points that break a rule as skipped, the valid points of a count of `F` as
failed and the other valid points as completed.  On the disk it leaves, the run of every valid
point reduces to an `Io` failure when its count is in `F`, to no samples when its clients issue
no requests, and otherwise to its clients' operations per second; the reduction of the sweep
records every run so, and leaves in the directory of every valid shape, for every test, a table
of throughput against clients that lists exactly the rows of the runs that completed with
requests, by increasing client count, or no table when there are none. -/
theorem sweep_then_reduce (host : Host.System) (F : List ℕ) (h : sw.Recordable host) :
    ∃ report D seen, (sw.run (Runner.recording F true)).runFrom ({ host := host }, []) =
        (.ok report, (D, seen)) ∧
      report.skipped = sw.space.points.countP (·.shape.validate.isSome) ∧
      report.failed = sw.space.points.countP (fun p => p.shape.validate.isNone ∧ p.clients ∈ F) ∧
      report.completed = sw.space.points.countP (fun p => p.shape.validate.isNone ∧ p.clients ∉ F) ∧
      (∀ p ∈ sw.space.points, p.shape.validate = none →
        ((Reduction.reduceRun (sw.runOf p)).runFrom D).1 = .ok (sw.recordedResult F (sw.runOf p))) ∧
      ∃ D', (Reduction.reduce sw.space sw.options.outputRoot).runFrom D =
          (.ok (Reduction.reportOf ((Reduction.testDirs sw.space sw.options.outputRoot).map
            (Reduction.TestRecord.ofResults sw.space.clients (sw.recordedResult F)))), D') ∧
        ∀ σ ∈ sw.space.shapes, σ.validate = none → ∀ t ∈ sw.space.tests,
          D'.find? (components sw.options.outputRoot ++ [σ.dirName, t ++ "_throughput_v_clients.dat"]) =
            if sw.recordedRows F = [] then none
            else some (.file (Table.text
              ⟨(sw.recordedRows F).mergeSort fun a b => a.clients ≤ b.clients⟩).toUTF8) := by
  obtain ⟨D, seen, hrun, hD⟩ := run_recorded (F := F) h.root h.tests h.quotas
    fun p hp hv => (h.fit p hp hv).toClientsFit
  obtain ⟨hskipped, hfailed, hcompleted⟩ := recordedReport_counts F sw.space.points
  obtain ⟨D', hred, htables⟩ := h.reduce hD
  refine ⟨_, D, seen, hrun, hskipped, hfailed, hcompleted, fun p hp hv => h.reduceRun hD hp hv, D',
    hred, fun σ hσ hv t ht => ?_⟩
  -- the table of the rows pushed one by one is their merge sort by client count
  have hsort : Table.ofRows (sw.recordedRows F) =
      ⟨(sw.recordedRows F).mergeSort fun a b => a.clients ≤ b.clients⟩ :=
    congrArg Table.mk (Table.ofRows_eq_mergeSort (sw.recordedRows F))
  rw [htables σ hσ hv t ht, hsort]

/-- The sweep of the end-to-end test, cut to one test and the counts 1 and 3, with a total of 800
operations and the runs of 3 clients failing: the shape with one server is skipped. -/
theorem sweep_then_reduce_get :
    Sweep.Recordable ⟨{ servers := [1, 4], replicas := [1], tests := ["get"], clients := [1, 3] },
      { cluster := {}, client := {}, ops := .total 800, outputRoot := "out" }⟩ Host.standard ∧
    let sw : Sweep := ⟨{ servers := [1, 4], replicas := [1], tests := ["get"], clients := [1, 3] },
      { cluster := {}, client := {}, ops := .total 800, outputRoot := "out" }⟩
    ∃ report D seen, (sw.run (Runner.recording [3] true)).runFrom ({ host := Host.standard }, []) =
        (.ok report, (D, seen)) ∧
      report.skipped = sw.space.points.countP (·.shape.validate.isSome) ∧
      report.failed = sw.space.points.countP (fun p => p.shape.validate.isNone ∧ p.clients ∈ [3]) ∧
      report.completed = sw.space.points.countP (fun p => p.shape.validate.isNone ∧ p.clients ∉ [3]) ∧
      (∀ p ∈ sw.space.points, p.shape.validate = none →
        ((Reduction.reduceRun (sw.runOf p)).runFrom D).1 = .ok (sw.recordedResult [3] (sw.runOf p))) ∧
      ∃ D', (Reduction.reduce sw.space sw.options.outputRoot).runFrom D =
          (.ok (Reduction.reportOf ((Reduction.testDirs sw.space sw.options.outputRoot).map
            (Reduction.TestRecord.ofResults sw.space.clients (sw.recordedResult [3])))), D') ∧
        ∀ σ ∈ sw.space.shapes, σ.validate = none → ∀ t ∈ sw.space.tests,
          D'.find? (components sw.options.outputRoot ++ [σ.dirName, t ++ "_throughput_v_clients.dat"]) =
            if sw.recordedRows [3] = [] then none
            else some (.file (Table.text
              ⟨(sw.recordedRows [3]).mergeSort fun a b => a.clients ≤ b.clients⟩).toUTF8) := by
  have hpoints : ({ servers := [1, 4], replicas := [1], tests := ["get"], clients := [1, 3] } :
      Space).points = [⟨⟨1, 1, 1, 3, 1⟩, "get", 1⟩, ⟨⟨1, 1, 1, 3, 1⟩, "get", 3⟩,
        ⟨⟨4, 1, 1, 3, 1⟩, "get", 1⟩, ⟨⟨4, 1, 1, 3, 1⟩, "get", 3⟩] := by
    decide
  have h : Sweep.Recordable ⟨{ servers := [1, 4], replicas := [1], tests := ["get"], clients := [1, 3] },
      { cluster := {}, client := {}, ops := .total 800, outputRoot := "out" }⟩ Host.standard := by
    have hroot : FreshRoot Host.standard "out" := freshRoot_standard (by decide +kernel)
    refine ⟨hroot, by decide, by decide, fun T hT => ?_, fun _ _ _ => ⟨_, rfl⟩, fun p hp hv => ?_⟩
    · cases hT
      decide
    · -- the two points of the shape with one server break a rule; the paths of the others fit
      rw [hpoints] at hp
      simp only [List.mem_cons, List.not_mem_nil, or_false] at hp
      rcases hp with rfl | rfl | rfl | rfl
      · exact absurd hv (by decide)
      · exact absurd hv (by decide)
      · exact ⟨⟨by unfold Fits; decide +kernel, by simp only [Fits]; decide +kernel,
          by simp only [Fits]; decide +kernel⟩, by unfold Fits; decide +kernel,
          by unfold Fits; decide +kernel, by unfold Fits; decide +kernel⟩
      · exact ⟨⟨by unfold Fits; decide +kernel, by simp only [Fits]; decide +kernel,
          by simp only [Fits]; decide +kernel⟩, by unfold Fits; decide +kernel,
          by unfold Fits; decide +kernel, by unfold Fits; decide +kernel⟩
  exact ⟨h, sweep_then_reduce _ Host.standard [3] h⟩

/-! ## A name too long for the reduction -/

/-- A test name of 227 bytes: with one client, the names of its clients' files take 254 and 253
bytes, and the name of its run's percentile table 256. -/
def longTest : String := String.ofList (List.replicate 227 'x')

/-- One client running the test `longTest` in the default shape, with one operation in all. -/
def longTestSweep : Sweep :=
  ⟨{ tests := [longTest], clients := [1] },
    { cluster := {}, client := {}, ops := .total 1, outputRoot := "out" }⟩

/-- The one point of `longTestSweep`. -/
def longTestPoint : Point := ⟨⟨4, 3, 1, 3, 1⟩, longTest, 1⟩

theorem longTestSweep_points : longTestSweep.space.points = [longTestPoint] := rfl

theorem longTest_toList : longTest.toList = List.replicate 227 'x' := String.toList_ofList

theorem slash_not_mem_longTest : '/' ∉ longTest.toList := by
  rw [longTest_toList, List.mem_replicate]
  decide

theorem holdsZero_longTest : holdsZero longTest = false := by
  rw [holdsZero, longTest_toList, Bool.eq_false_iff]
  intro h
  exact absurd (List.mem_replicate.1 (List.contains_iff_mem.1 h)).2 (by decide)

theorem holdsZero_longTestEntry {who s : String} (hwho : holdsZero who = false)
    (hs : holdsZero s = false) :
    holdsZero ((longTestSweep.runOf longTestPoint).entry who s) = false := by
  simp only [RunFiles.entry, runOf, longTestPoint, holdsZero_append, holdsZero_longTest, hwho, hs]
  decide

theorem fits_longTestDir : Fits (joinPath "out" longTestPoint.shape.dirName) := by
  unfold Fits
  decide +kernel

/-- The files of the client of `longTestPoint` fit. -/
theorem longTestRun_clientsFit : (longTestSweep.runOf longTestPoint).ClientsFit := by
  have hone : '/' ∉ (toString 1).toList := by decide
  refine ⟨fits_longTestDir, fun i hi => ?_, fun i hi => ?_⟩ <;>
    obtain rfl : i = 1 := by simpa [RunFiles.indices, runOf, longTestPoint] using hi
  · rw [RunFiles.latencies, runOf_file]
    exact fits_shapeEntry (RunFiles.entryName_entry slash_not_mem_longTest hone (by decide))
      fits_longTestDir (holdsZero_longTestEntry (by decide) (by decide)) (by decide +kernel)
      (by decide +kernel)
  · rw [RunFiles.summary, runOf_file]
    exact fits_shapeEntry (RunFiles.entryName_entry slash_not_mem_longTest hone (by decide))
      fits_longTestDir (holdsZero_longTestEntry (by decide) (by decide)) (by decide +kernel)
      (by decide +kernel)

/-- A test name may leave room for the files the clients write and not for those the reduction
writes: the recording completes the run, which `recordedResult` reads as one operation per
second, but its reduction fails, for the name of the percentile table is one byte too long. -/
theorem reduce_run_fails_on_long_test_name :
    ¬ longTestSweep.Recordable Host.standard ∧
      ∃ report D seen, (longTestSweep.run (Runner.recording [] true)).runFrom
          ({ host := Host.standard }, []) = (.ok report, (D, seen)) ∧
        report.completed = 1 ∧
        longTestSweep.recordedResult [] (longTestSweep.runOf longTestPoint) = .ok (Binary64.ofNat 1) ∧
        ((Reduction.reduceRun (longTestSweep.runOf longTestPoint)).runFrom D).1 =
          .ok (.error (.io (longTestSweep.runOf longTestPoint).cdf .nameTooLong)) := by
  have hmem : longTestPoint ∈ longTestSweep.space.points := by
    rw [longTestSweep_points]
    exact List.mem_singleton_self _
  have hv : longTestPoint.shape.validate = none := by decide
  have hname : EntryName ((longTestSweep.runOf longTestPoint).entry "all" "reqLatencies.cdf") :=
    RunFiles.entryName_all slash_not_mem_longTest (by decide)
  refine ⟨fun h => ?_, ?_⟩
  · -- the name of the run's percentile table is 256 bytes long
    have hcdf := (h.fit longTestPoint hmem hv).cdf
    rw [RunFiles.cdf, runOf_file] at hcdf
    have hlong := hcdf.2 ((longTestSweep.runOf longTestPoint).entry "all" "reqLatencies.cdf") (by
      rw [components_shapeEntry _ hname]
      exact List.mem_append_right _ (.tail _ (.head _)))
    revert hlong
    decide +kernel
  -- the recording runs the one point and completes it
  have hpoint : ∀ p ∈ longTestSweep.space.points, p = longTestPoint := fun p hp => by
    rwa [longTestSweep_points, List.mem_singleton] at hp
  obtain ⟨D, seen, hrun, hD⟩ := @run_recorded longTestSweep [] Host.standard
    (freshRoot_standard (by decide +kernel))
    (fun t ht => by
      rw [List.mem_singleton.1 ht]
      exact slash_not_mem_longTest)
    (fun p hp _ => by
      obtain rfl := hpoint p hp
      exact ⟨_, rfl⟩)
    (fun p hp _ => by
      obtain rfl := hpoint p hp
      exact longTestRun_clientsFit)
  refine ⟨_, D, seen, hrun, ?_, rfl, ?_⟩
  · rw [(recordedReport_counts [] _).2.2, longTestSweep_points]
    decide
  -- the run reads back, and its table has no place
  have hcheck : checkPath (longTestSweep.runOf longTestPoint).cdf = .ok () := by
    rw [RunFiles.cdf, runOf_file]
    exact checkPath_joinPath fits_longTestDir.1 (holdsZero_longTestEntry (by decide) (by decide))
      (by decide +kernel)
  refine hD.reduceRun_long_cdf slash_not_mem_longTest (List.mem_filter.2 ⟨hmem, by simp [hv]⟩)
    longTestRun_clientsFit (by decide) (by decide) (by decide) (fun i hi => ?_) (by decide) hcheck
    (by decide +kernel)
  simp only [completedClients, List.mem_flatMap]
  exact ⟨longTestPoint, hmem, by simp [hv, hi]⟩

end Sweep

end ClusterSweep
