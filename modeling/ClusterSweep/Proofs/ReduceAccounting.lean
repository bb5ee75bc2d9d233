import Mathlib
import ClusterSweep.Proofs.OutputAgreement
import ClusterSweep.Proofs.PartitionPoint

/-!
# Every run is reduced once and accounted for

`Reduction.reduce` visits the tests of the valid shapes' directories (`Reduction.testDirs`) and in
each the runs of the client counts, in list order.  What it does is described here by a trace,
test by test and run by run:

* `RunsReduced`: the runs of one test are reduced one after the other, each exactly once and on
  the disk that the run before it left; the trace pairs every run with what reducing it gave.  A
  run whose operations overflow their word stops the program, and the trace ends with it.
* `Finished`: a test with rows has its table written next to its runs; one without rows writes
  nothing.
* `TestsReduced`: the tests one after the other, each reduced and then finished.

The report is read off the trace (`reportOf`): every run reduced adds its row `(c, x)` to the table
of its test and every run not reduced records its failure with its client count, in the order of
the runs; a test whose table was written is reported with it, and one whose write failed records
that failure without a client count.  A table holds its rows by increasing client count, rows of
equal count in the order of the runs (`Table.ofRows`), since a new row goes after every row with
as many clients or fewer.

`reduce_accounts_every_run` states that every reduction follows such a trace and reports what
`reportOf` reads off it, and that unless an overflow stopped it the runs reduced are exactly the
runs of the valid shapes, in order.
-/

namespace ClusterSweep

/-! ## Throughput tables -/

namespace Throughput

/-- Rows by increasing client count. -/
def ClientsSorted (rows : List Row) : Prop :=
  rows.Pairwise fun a b => a.clients ≤ b.clients

namespace Table

variable {t : Table} {c : ℕ} {x : Binary64}

/-- Past the rows with at most `c` clients, sorted rows have only rows with more. -/
theorem lt_of_mem_dropWhile {rows : List Row} (hs : ClientsSorted rows) {r : Row}
    (hr : r ∈ rows.dropWhile (·.clients ≤ c)) : c < r.clients := by
  induction rows with
  | nil => simp at hr
  | cons a rows ih =>
    obtain ⟨ha, hs'⟩ := List.pairwise_cons.1 hs
    by_cases hac : a.clients ≤ c
    · rw [List.dropWhile_cons_of_pos (by simpa using hac)] at hr
      exact ih hs' hr
    · rw [List.dropWhile_cons_of_neg (by simpa using hac)] at hr
      rcases List.mem_cons.1 hr with rfl | hr'
      · omega
      · have := ha r hr'
        omega

theorem push_points : (t.push c x).points =
    t.points.take (partitionPoint (·.clients ≤ c) t.points) ++
      ⟨c, x⟩ :: t.points.drop (partitionPoint (·.clients ≤ c) t.points) :=
  rfl

/-- Sorted rows are partitioned by having at most `c` clients. -/
theorem ClientsSorted.partitioned {rows : List Row} (hs : ClientsSorted rows) :
    Partitioned (·.clients ≤ c) rows :=
  hs.imp fun hab hb => by simp only [decide_eq_true_eq] at hb ⊢; omega

/-- Into sorted rows, the search puts the new row after the rows with at most its clients. -/
theorem push_points_of_sorted (hs : ClientsSorted t.points) : (t.push c x).points =
    t.points.takeWhile (·.clients ≤ c) ++ ⟨c, x⟩ :: t.points.dropWhile (·.clients ≤ c) := by
  rw [push_points, take_partitionPoint (ClientsSorted.partitioned hs),
    drop_partitionPoint (ClientsSorted.partitioned hs)]

/-- Pushing adds exactly the new row. -/
theorem push_perm : (t.push c x).points.Perm (t.points ++ [⟨c, x⟩]) := by
  rw [push_points]
  refine List.perm_middle.trans ?_
  rw [List.take_append_drop]
  exact (List.perm_append_singleton _ _).symm

/-- Pushing into sorted rows keeps them sorted. -/
theorem push_sorted (hs : ClientsSorted t.points) : ClientsSorted (t.push c x).points := by
  have hsplit : ClientsSorted (t.points.takeWhile (·.clients ≤ c) ++
      t.points.dropWhile (·.clients ≤ c)) := by
    rwa [List.takeWhile_append_dropWhile]
  obtain ⟨htake, hdrop, hcross⟩ := List.pairwise_append.1 hsplit
  rw [ClientsSorted, push_points_of_sorted hs, List.pairwise_append]
  refine ⟨htake, List.pairwise_cons.2 ⟨fun r hr => (lt_of_mem_dropWhile hs hr).le, hdrop⟩,
    fun a ha b hb => ?_⟩
  rcases List.mem_cons.1 hb with rfl | hb
  · -- the rows before the new one have at most its clients
    simpa using List.mem_takeWhile_imp ha
  · exact hcross a ha b hb

/-- Pushing into sorted rows puts the new row after the rows of its client count. -/
theorem filter_push (hs : ClientsSorted t.points) (k : ℕ) :
    (t.push c x).points.filter (·.clients == k) =
      t.points.filter (·.clients == k) ++ if c = k then [⟨c, x⟩] else [] := by
  have hsplit := List.takeWhile_append_dropWhile (p := (·.clients ≤ c)) (l := t.points)
  rw [push_points_of_sorted hs, List.filter_append, List.filter_cons]
  conv_rhs => rw [← hsplit, List.filter_append]
  by_cases hck : c = k
  · subst hck
    -- no row past the split has the new row's clients
    have hnone : (t.points.dropWhile (·.clients ≤ c)).filter (·.clients == c) = [] :=
      List.filter_eq_nil_iff.2 fun r hr => by
        have := lt_of_mem_dropWhile hs hr
        simp only [beq_iff_eq]
        omega
    simp [hnone]
  · simp [hck]

/-- The table of rows pushed in order. -/
def ofRows (rows : List Row) : Table := rows.foldl (fun t r => t.push r.clients r.opsPerSec) {}

section Fold

variable (rows : List Row)

theorem foldl_push_sorted (t : Table) (hs : ClientsSorted t.points) :
    ClientsSorted (rows.foldl (fun t r => t.push r.clients r.opsPerSec) t).points := by
  induction rows generalizing t with
  | nil => exact hs
  | cons r rows ih => exact ih _ (push_sorted hs)

theorem foldl_push_perm (t : Table) :
    (rows.foldl (fun t r => t.push r.clients r.opsPerSec) t).points.Perm (t.points ++ rows) := by
  induction rows generalizing t with
  | nil => simp
  | cons r rows ih =>
    refine (ih _).trans ?_
    have h := List.Perm.append_right rows (push_perm (t := t) (c := r.clients) (x := r.opsPerSec))
    simpa using h

theorem filter_foldl_push (t : Table) (hs : ClientsSorted t.points) (k : ℕ) :
    (rows.foldl (fun t r => t.push r.clients r.opsPerSec) t).points.filter (·.clients == k) =
      t.points.filter (·.clients == k) ++ rows.filter (·.clients == k) := by
  induction rows generalizing t with
  | nil => simp
  | cons r rows ih =>
    obtain ⟨rc, rx⟩ := r
    rw [List.foldl_cons, ih _ (push_sorted hs), filter_push hs, List.filter_cons]
    by_cases hk : rc = k <;> simp [hk]

end Fold

/-- The table of rows lists them by increasing client count, rows of equal count in the order
they came: sorted, the same rows, and the same order within each count. -/
theorem ofRows_spec (rows : List Row) :
    ClientsSorted (ofRows rows).points ∧ (ofRows rows).points.Perm rows ∧
      ∀ k, (ofRows rows).points.filter (·.clients == k) = rows.filter (·.clients == k) := by
  have hnil : ClientsSorted ({} : Table).points := List.Pairwise.nil
  have hperm := foldl_push_perm rows {}
  have hfilter := filter_foldl_push rows {} hnil
  rw [List.nil_append] at hperm
  simp only [List.filter_nil, List.nil_append] at hfilter
  exact ⟨foldl_push_sorted rows {} hnil, hperm, hfilter⟩

theorem ofRows_isEmpty (rows : List Row) : (ofRows rows).isEmpty = rows.isEmpty := by
  rw [isEmpty, Bool.eq_iff_iff, List.isEmpty_iff, List.isEmpty_iff, ← List.length_eq_zero_iff,
    ((ofRows_spec rows).2.1).length_eq, List.length_eq_zero_iff]

end Table

end Throughput

/-! ## Traces of a reduction -/

namespace Reduction

open Throughput

/-- What reducing a run gave: its throughput, or why it has none. -/
abbrev RunResult : Type := Except ReduceError Binary64

/-- The row a run adds to its test's table when it was reduced. -/
def rowOf (f : RunFiles) : RunResult → Option Row
  | .ok x => some ⟨f.clients, x⟩
  | .error _ => none

/-- The failure a run records when it was not reduced. -/
def failureOf (f : RunFiles) : RunResult → Option Failure
  | .ok _ => none
  | .error e => some ⟨f.dir, f.test, some f.clients, e⟩

/-- The rows of the runs reduced, in the order of the runs. -/
def rowsOf (rs : List (RunFiles × RunResult)) : List Row :=
  rs.filterMap fun p => rowOf p.1 p.2

/-- The failures of the runs not reduced, in the order of the runs. -/
def failuresOf (rs : List (RunFiles × RunResult)) : List Failure :=
  rs.filterMap fun p => failureOf p.1 p.2

/-- Every run is accounted for once: by a row or by a failure. -/
theorem length_rowsOf_add_length_failuresOf (rs : List (RunFiles × RunResult)) :
    (rowsOf rs).length + (failuresOf rs).length = rs.length := by
  induction rs with
  | nil => rfl
  | cons p rs ih =>
    obtain ⟨f, _ | x⟩ := p <;>
      simp [rowsOf, failuresOf, rowOf, failureOf] at ih ⊢ <;> omega

/-- The runs `fs` reduced one after the other from disk `d`, each once and on the disk that the
run before it left: `rs` pairs each run with what reducing it gave, and `stop` is the overflow of
the run after them that stopped the program, if one did. -/
inductive RunsReduced :
    List RunFiles → Disk → List (RunFiles × RunResult) → Option Overflow → Disk → Prop where
  /-- No run is left. -/
  | nil (d : Disk) : RunsReduced [] d [] none d
  /-- The run's operations overflow and the program stops. -/
  | stop {f : RunFiles} {fs : List RunFiles} {d d' : Disk} {o : Overflow}
      (hrun : (reduceRun f).runFrom d = (.error o, d')) : RunsReduced (f :: fs) d [] (some o) d'
  /-- The run is reduced, or fails, and the others follow on the disk it left. -/
  | cons {f : RunFiles} {fs : List RunFiles} {d d₁ d' : Disk} {r : RunResult}
      {rs : List (RunFiles × RunResult)} {stop : Option Overflow}
      (hrun : (reduceRun f).runFrom d = (.ok r, d₁)) (rest : RunsReduced fs d₁ rs stop d') :
      RunsReduced (f :: fs) d ((f, r) :: rs) stop d'

/-- What came of finishing test `test` in directory `dir` with rows `rows` from disk `d`:
nothing without rows; else the table's text written next to the runs, or the error of the
write, which leaves the disk as it was. -/
inductive Finished (dir test : String) (rows : List Row) :
    Disk → Option (Except ReduceError Unit) → Disk → Prop where
  /-- No row: nothing is written. -/
  | empty {d : Disk} (h : rows = []) : Finished dir test rows d none d
  /-- The table is written. -/
  | written {d d' : Disk} (h : rows ≠ [])
      (hw : writeText d (throughputVsClients dir test) (Table.ofRows rows).text = .ok d') :
      Finished dir test rows d (some (.ok ())) d'
  /-- Writing the table fails. -/
  | failed {d : Disk} {e : ReduceError} (h : rows ≠ [])
      (hw : writeText d (throughputVsClients dir test) (Table.ofRows rows).text = .error e) :
      Finished dir test rows d (some (.error e)) d

/-- What a reduction did for one test of one directory. -/
structure TestRecord where
  /-- The directory. -/
  dir : String
  /-- The test. -/
  test : String
  /-- Every run with what reducing it gave. -/
  results : List (RunFiles × RunResult)
  /-- The outcome of writing the table; none when it has no rows. -/
  written : Option (Except ReduceError Unit)

/-- The table of a test as the report lists it: only when it was written. -/
def writtenTables (dir test : String) (table : Table) : Option (Except ReduceError Unit) →
    List ReducedTest
  | some (.ok ()) => [⟨dir, test, table⟩]
  | _ => []

/-- The failure of writing a test's table, if the write failed. -/
def writeFailures (dir test : String) : Option (Except ReduceError Unit) → List Failure
  | some (.error e) => [⟨dir, test, none, e⟩]
  | _ => []

namespace TestRecord

/-- The table of the test: the rows of its runs, by increasing clients. -/
def table (r : TestRecord) : Table := Table.ofRows (rowsOf r.results)

/-- The test as the report lists it among the tables: only when its table was written. -/
def reported (r : TestRecord) : List ReducedTest := writtenTables r.dir r.test r.table r.written

/-- The failures of the test: those of its runs, then that of writing its table. -/
def failures (r : TestRecord) : List Failure :=
  failuresOf r.results ++ writeFailures r.dir r.test r.written

end TestRecord

/-- The report of a reduction, read off what it did for each test. -/
def reportOf (recs : List TestRecord) : Report :=
  ⟨recs.flatMap TestRecord.reported, recs.flatMap TestRecord.failures⟩

/-- The tests `gs` of directories reduced one after the other from disk `d`: the runs of each
test, one per client count in list order, then its table; `recs` records each test, and `stop`
is the overflow that stopped the program, if one did. -/
inductive TestsReduced (clients : List ℕ) :
    List (String × String) → Disk → List TestRecord → Option Overflow → Disk → Prop where
  /-- No test is left. -/
  | nil (d : Disk) : TestsReduced clients [] d [] none d
  /-- A run of the test stops the program. -/
  | stop {g : String × String} {gs : List (String × String)} {d d' : Disk}
      {rs : List (RunFiles × RunResult)} {o : Overflow}
      (hruns : RunsReduced (clients.map (RunFiles.mk g.1 g.2)) d rs (some o) d') :
      TestsReduced clients (g :: gs) d [] (some o) d'
  /-- The runs of the test are reduced, its table is finished, and the other tests follow. -/
  | cons {g : String × String} {gs : List (String × String)} {d d₁ d₂ d' : Disk}
      {rs : List (RunFiles × RunResult)} {w : Option (Except ReduceError Unit)}
      {recs : List TestRecord} {stop : Option Overflow}
      (hruns : RunsReduced (clients.map (RunFiles.mk g.1 g.2)) d rs none d₁)
      (hfin : Finished g.1 g.2 (rowsOf rs) d₁ w d₂)
      (rest : TestsReduced clients gs d₂ recs stop d') :
      TestsReduced clients (g :: gs) d (⟨g.1, g.2, rs, w⟩ :: recs) stop d'

/-- The result of a computation that stops with `stop`, or else returns `a`. -/
def stopOr {α : Type} (stop : Option Overflow) (a : α) : Except Overflow α :=
  match stop with
  | none => .ok a
  | some o => .error o

/-! ## One run -/

section Run

variable {f : RunFiles} {d d' : Disk} (acc : Table × Report)

theorem recordRun_of_ok {x : Binary64} (h : (reduceRun f).runFrom d = (.ok (.ok x), d')) :
    (recordRun acc f).runFrom d = (.ok (acc.1.push f.clients x, acc.2), d') := by
  simp only [recordRun, Stopping.runFrom_bind, h]
  rfl

theorem recordRun_of_error {e : ReduceError} (h : (reduceRun f).runFrom d = (.ok (.error e), d')) :
    (recordRun acc f).runFrom d =
      (.ok (acc.1, { acc.2 with failures := acc.2.failures ++ [⟨f.dir, f.test, some f.clients, e⟩] }),
        d') := by
  simp only [recordRun, Stopping.runFrom_bind, h]
  rfl

theorem recordRun_of_stop {o : Overflow} (h : (reduceRun f).runFrom d = (.error o, d')) :
    (recordRun acc f).runFrom d = (.error o, d') := by
  simp only [recordRun, Stopping.runFrom_bind, h]

end Run

/-- Reducing the runs of a test as a trace says: the rows go into the table and the failures into
the report, in the order of the runs.  Induction on the trace: each step is one of the three
lemmas on `recordRun`. -/
theorem foldlM_recordRun {fs : List RunFiles} {d d' : Disk} {rs : List (RunFiles × RunResult)}
    {stop : Option Overflow} (h : RunsReduced fs d rs stop d') (t : Table) (rep : Report) :
    (fs.foldlM recordRun (t, rep)).runFrom d =
      (stopOr stop ((rowsOf rs).foldl (fun t r => t.push r.clients r.opsPerSec) t,
        { rep with failures := rep.failures ++ failuresOf rs }), d') := by
  induction h generalizing t rep with
  | nil d => simp [stopOr, rowsOf, failuresOf]
  | stop hrun =>
    rw [List.foldlM_cons, Stopping.runFrom_bind, recordRun_of_stop _ hrun]
    rfl
  | @cons f fs d d₁ d' r rs stop hrun rest ih =>
    rw [List.foldlM_cons, Stopping.runFrom_bind]
    cases r with
    | ok x =>
      rw [recordRun_of_ok _ hrun]
      simp only [ih, rowsOf, failuresOf, List.filterMap_cons, rowOf, failureOf, List.foldl_cons]
    | error e =>
      rw [recordRun_of_error _ hrun]
      simp only [ih, rowsOf, failuresOf, List.filterMap_cons, rowOf, failureOf, List.append_assoc,
        List.singleton_append]

/-- Every list of runs has a trace from every disk. -/
theorem exists_runsReduced : ∀ (fs : List RunFiles) (d : Disk),
    ∃ rs stop d', RunsReduced fs d rs stop d'
  | [], d => ⟨[], none, d, .nil d⟩
  | f :: fs, d => by
    rcases h : (reduceRun f).runFrom d with ⟨_ | r, d₁⟩
    · exact ⟨[], _, _, .stop h⟩
    · obtain ⟨rs, stop, d', hrest⟩ := exists_runsReduced fs d₁
      exact ⟨_, _, _, .cons h hrest⟩

/-- A trace of runs that no overflow stopped lists every run, in order. -/
theorem RunsReduced.map_fst {fs : List RunFiles} {d d' : Disk} {rs : List (RunFiles × RunResult)}
    (h : RunsReduced fs d rs none d') : rs.map Prod.fst = fs := by
  generalize hstop : (none : Option Overflow) = stop at h
  induction h with
  | nil => rfl
  | stop => exact nomatch hstop
  | cons _ _ ih => rw [List.map_cons, ih hstop]

/-! ## One test -/

section Test

variable {dir test : String} {rows : List Row} {d d' : Disk}
  {w : Option (Except ReduceError Unit)}

/-- Finishing a test as `Finished` says: its table reported when written, the failure of the
write recorded when not. -/
theorem finishTest_runFrom (h : Finished dir test rows d w d') (rep : Report) :
    (finishTest dir test (Table.ofRows rows) rep).runFrom d =
      (.ok ⟨rep.tables ++ writtenTables dir test (Table.ofRows rows) w,
        rep.failures ++ writeFailures dir test w⟩, d') := by
  cases h with
  | empty hrows =>
    subst hrows
    simp [finishTest, Table.ofRows_isEmpty, writtenTables, writeFailures]
  | written hrows hw =>
    have hne : (Table.ofRows rows).isEmpty = false := by
      rw [Table.ofRows_isEmpty]
      simpa using hrows
    simp only [finishTest, hne, Bool.false_eq_true, if_false, Stopping.runFrom_bind,
      Stopping.runFrom_get, hw]
    simp [writtenTables, writeFailures]
  | failed hrows hw =>
    have hne : (Table.ofRows rows).isEmpty = false := by
      rw [Table.ofRows_isEmpty]
      simpa using hrows
    simp only [finishTest, hne, Bool.false_eq_true, if_false, Stopping.runFrom_bind,
      Stopping.runFrom_get, hw]
    simp [writtenTables, writeFailures]

end Test

/-- Reducing a test whose runs no overflow stops: its rows and failures, then its table. -/
theorem reduceTest_runFrom {clients : List ℕ} {dir test : String} {d d₁ d₂ : Disk}
    {rs : List (RunFiles × RunResult)} {w : Option (Except ReduceError Unit)}
    (hruns : RunsReduced (clients.map (RunFiles.mk dir test)) d rs none d₁)
    (hfin : Finished dir test (rowsOf rs) d₁ w d₂) (rep : Report) :
    (reduceTest clients dir test rep).runFrom d =
      (.ok ⟨rep.tables ++ (TestRecord.mk dir test rs w).reported,
        rep.failures ++ (TestRecord.mk dir test rs w).failures⟩, d₂) := by
  simp only [reduceTest, Stopping.runFrom_bind, foldlM_recordRun hruns, stopOr]
  rw [← Table.ofRows, finishTest_runFrom hfin]
  simp [TestRecord.reported, TestRecord.failures, TestRecord.table]

/-- A run of the test that overflows stops the reduction of the test. -/
theorem reduceTest_of_stop {clients : List ℕ} {dir test : String} {d d₁ : Disk}
    {rs : List (RunFiles × RunResult)} {o : Overflow}
    (hruns : RunsReduced (clients.map (RunFiles.mk dir test)) d rs (some o) d₁) (rep : Report) :
    (reduceTest clients dir test rep).runFrom d = (.error o, d₁) := by
  simp only [reduceTest, Stopping.runFrom_bind, foldlM_recordRun hruns, stopOr]

/-! ## All tests -/

section Tests

variable {clients : List ℕ}

/-- Reducing the tests as a trace says: the report of what was done for each test, in order, or
the overflow that stopped it.  Induction on the trace, one test at a time. -/
theorem foldlM_reduceTest {gs : List (String × String)} {d d' : Disk} {recs : List TestRecord}
    {stop : Option Overflow} (h : TestsReduced clients gs d recs stop d') (rep : Report) :
    (gs.foldlM (fun report g => reduceTest clients g.1 g.2 report) rep).runFrom d =
      (stopOr stop ⟨rep.tables ++ (reportOf recs).tables, rep.failures ++ (reportOf recs).failures⟩,
        d') := by
  induction h generalizing rep with
  | nil d => simp [stopOr, reportOf]
  | stop hruns =>
    rw [List.foldlM_cons, Stopping.runFrom_bind, reduceTest_of_stop hruns]
    rfl
  | cons hruns hfin rest ih =>
    rw [List.foldlM_cons, Stopping.runFrom_bind, reduceTest_runFrom hruns hfin]
    dsimp only
    rw [ih]
    simp [reportOf]

/-- Every list of tests has a trace from every disk. -/
theorem exists_testsReduced : ∀ (gs : List (String × String)) (d : Disk),
    ∃ recs stop d', TestsReduced clients gs d recs stop d'
  | [], d => ⟨[], none, d, .nil d⟩
  | g :: gs, d => by
    obtain ⟨rs, stop, d₁, hruns⟩ := exists_runsReduced (clients.map (RunFiles.mk g.1 g.2)) d
    cases stop with
    | some o => exact ⟨[], _, _, .stop hruns⟩
    | none =>
      -- finishing the test: nothing without rows, else the write succeeds or fails
      obtain ⟨w, d₂, hfin⟩ : ∃ w d₂, Finished g.1 g.2 (rowsOf rs) d₁ w d₂ := by
        by_cases hrows : rowsOf rs = []
        · exact ⟨_, _, .empty hrows⟩
        · cases hw : writeText d₁ (throughputVsClients g.1 g.2) (Table.ofRows (rowsOf rs)).text with
          | ok d₂ => exact ⟨_, _, .written hrows hw⟩
          | error e => exact ⟨_, _, .failed hrows hw⟩
      obtain ⟨recs, stop, d', hrest⟩ := exists_testsReduced gs d₂
      exact ⟨_, _, _, .cons hruns hfin hrest⟩

/-- A trace of tests that no overflow stopped reduces the runs of every test, in order. -/
theorem TestsReduced.runs_eq {gs : List (String × String)} {d d' : Disk} {recs : List TestRecord}
    (h : TestsReduced clients gs d recs none d') :
    recs.flatMap (fun r => r.results.map Prod.fst) =
      gs.flatMap fun g => clients.map (RunFiles.mk g.1 g.2) := by
  generalize hstop : (none : Option Overflow) = stop at h
  induction h with
  | nil => rfl
  | stop => exact nomatch hstop
  | cons hruns _ _ ih => simp [ih hstop, hruns.map_fst]

end Tests

/-- A reduction follows a trace from every disk and reports what the trace says: unless the
operations of a run overflow and stop the program, every run of every test of the valid shapes
is reduced exactly once, in nested order, each on the disk the step before it left; each run is
accounted once, as the row `(c, x)` of its test's table or as its failure with its client count,
in the order of the runs; a test with rows has its table written, and is reported with it, or
records the failure of the write without a client count; a test without rows writes and records
nothing.  Every table lists its rows by increasing client count, rows of equal count in the order
of the runs. -/
theorem reduce_accounts_every_run (S : Space) (root : String) (d : Disk) :
    ∃ recs stop d', TestsReduced S.clients (testDirs S root) d recs stop d' ∧
      (reduce S root).runFrom d = (stopOr stop (reportOf recs), d') ∧
      (stop = none → recs.flatMap (fun r => r.results.map Prod.fst) = runs S root) ∧
      ∀ r ∈ recs, (rowsOf r.results).length + (failuresOf r.results).length = r.results.length ∧
        ClientsSorted r.table.points ∧ r.table.points.Perm (rowsOf r.results) ∧
        ∀ k, r.table.points.filter (·.clients == k) = (rowsOf r.results).filter (·.clients == k) := by
  obtain ⟨recs, stop, d', h⟩ := @exists_testsReduced S.clients (testDirs S root) d
  refine ⟨recs, stop, d', h, ?_, ?_, fun r _ => ⟨length_rowsOf_add_length_failuresOf r.results,
    Table.ofRows_spec (rowsOf r.results)⟩⟩
  · rw [reduce_eq_foldlM_testDirs, foldlM_reduceTest h]
    simp
  · rintro rfl
    exact h.runs_eq

/-- A disk holding one two-client run of the test `get` in the default shape's directory below
`out`, each client reporting `2⁶⁴ - 1` operations. -/
def overflowingRun : Disk :=
  Disk.ofFiles
    [("out/servers4_replicas3_span1_value3_keys1/get_client2-1_reqLatencies.dat", some "1\n".toUTF8),
     ("out/servers4_replicas3_span1_value3_keys1/get_client2-2_reqLatencies.dat", some "1\n".toUTF8),
     ("out/servers4_replicas3_span1_value3_keys1/get_client2-1_execSummary.dat",
       some "totalTime 1\ntotalOps 18446744073709551615\n".toUTF8),
     ("out/servers4_replicas3_span1_value3_keys1/get_client2-2_execSummary.dat",
       some "totalTime 1\ntotalOps 18446744073709551615\n".toUTF8)]

/-- The operations of a run are summed in a machine word: a run whose clients report more than
`2⁶⁴ - 1` operations in all stops the reduction, which then reports nothing. -/
theorem reduce_stops_on_operation_overflow :
    ((reduce { tests := ["get"], clients := [2] } "out").runFrom overflowingRun).1 = .error .add := by
  decide +kernel

end Reduction

end ClusterSweep
