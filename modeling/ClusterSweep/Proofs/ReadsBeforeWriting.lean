import Mathlib
import ClusterSweep.Proofs.SampleGrammar
import ClusterSweep.Proofs.SummaryGrammar
import ClusterSweep.Proofs.Aggregation
import ClusterSweep.Proofs.ReduceIdempotent

/-!
# A run is read whole before anything is written

Reducing a run reads, in this order, every latency file (each opened, then parsed), the whole
set of samples, and every execution summary, and computes the throughput; only then does it
write the percentile table and, after it, the throughput.  `Reduction.RunEnd` lists the ways a
reduction can end, each with the disk it leaves:

* a reading failure (`Reduction.ReadFailure`): the first latency file that does not read, no
  samples at all, or the first summary that does not read; the disk is as it was;
* an overflowing sum of operations, or no positive run time: the disk is as it was;
* the table cannot be written: the disk is as it was;
* the throughput cannot be written: the table alone has been written;
* both are written, each at its own place, and nothing else changed.

Every error that reading a file reports names that file (`Reduction.ReadFailure.file?_eq`), and
the names of the reduced files end unlike those of the clients' files, so an error naming the
throughput file comes from writing it (`Reduction.reduceRun_reads_before_writing`).
-/

namespace ClusterSweep

/-- The file an error is about, if it is about one. -/
def ReduceError.file? : ReduceError → Option String
  | .io path _ | .parse path _ _ | .missingField path _ => some path
  | .noSamples | .zeroDuration => none

namespace RunFiles

/-- A file of a run that a reduction writes is none of the files its clients write. -/
theorem file_ne_file {r r' : RunFiles} {who who' s t : String} (hs : s ∈ readSuffixes)
    (ht : t ∈ writeSuffixes) : r.file who s ≠ r'.file who' t := by
  obtain ⟨pre, hpre⟩ := Reduction.joinPath_eq_append r.dir
    (r.test ++ "_client" ++ toString r.clients ++ "-" ++ who ++ "_" ++ s)
  obtain ⟨pre', hpre'⟩ := Reduction.joinPath_eq_append r'.dir
    (r'.test ++ "_client" ++ toString r'.clients ++ "-" ++ who' ++ "_" ++ t)
  rw [file, file, hpre, hpre', ← @String.append_assoc pre, ← @String.append_assoc pre']
  exact append_ne_append (suffixes_apart s hs t ht).1 (suffixes_apart s hs t ht).2

/-- The throughput of a run is not one of its clients' files. -/
theorem throughput_not_mem (f : RunFiles) : f.throughput ∉ f.allLatencies ++ f.allSummaries := by
  intro h
  rcases List.mem_append.1 h with h | h
  · obtain ⟨i, -, hi⟩ := List.mem_map.1 h
    exact file_ne_file (.head _) (.tail _ (.head _)) hi
  · obtain ⟨i, -, hi⟩ := List.mem_map.1 h
    exact file_ne_file (.tail _ (.head _)) (.tail _ (.head _)) hi

/-- The table and the throughput of a run are two files. -/
theorem cdf_ne_throughput (f : RunFiles) : f.cdf ≠ f.throughput := by
  have hapart : ¬ "reqLatencies.cdf".toList <:+ "throughput.dat".toList ∧
      ¬ "throughput.dat".toList <:+ "reqLatencies.cdf".toList := by decide
  obtain ⟨pre, hpre⟩ := Reduction.joinPath_eq_append f.dir
    (f.test ++ "_client" ++ toString f.clients ++ "-" ++ "all" ++ "_" ++ "reqLatencies.cdf")
  obtain ⟨pre', hpre'⟩ := Reduction.joinPath_eq_append f.dir
    (f.test ++ "_client" ++ toString f.clients ++ "-" ++ "all" ++ "_" ++ "throughput.dat")
  rw [cdf, throughput, file, file, hpre, hpre', ← @String.append_assoc pre,
    ← @String.append_assoc pre']
  exact append_ne_append hapart.1 hapart.2

end RunFiles

namespace Latency

open Text

/-- Every error that parsing a latency file reports names the file. -/
theorem parseSamples_error_file? {path : String} {data : ByteArray} {e : ReduceError}
    (h : parseSamples path data = .error e) : e.file? = some path := by
  rw [parseSamples_eq, map_eq_error_iff, mapM_eq_error_iff] at h
  obtain ⟨-, ⟨line?, n⟩, -, -, -, hl⟩ := h
  cases line? with
  | none =>
    cases hl
    rfl
  | some line =>
    rw [samplesOfLine, lineSamples_eq] at hl
    split at hl
    · cases hl
    · -- the first item that is no number names the line's file
      obtain ⟨-, tok, -, -, -, htok⟩ := mapM_eq_error_iff.1 hl
      rw [(tokenSample_eq_error_iff.1 htok).1]
      rfl

end Latency

namespace Throughput

open Text

/-- Every error that reading a line of a summary reports names the file. -/
theorem summaryLine_error_file? {path : String} {l : Option String × Nat} {e : ReduceError}
    (h : summaryLine path l = .error e) : e.file? = some path := by
  obtain ⟨line? , n⟩ := l
  cases line? with
  | none =>
    cases h
    rfl
  | some line =>
    simp only [summaryLine] at h
    split at h
    · cases h
    · cases h
      rfl
    · -- a value that does not read is named with the file
      split_ifs at h
      · split at h
        · cases h
        · cases h
          rfl
      · split at h
        · cases h
        · cases h
          rfl

/-- Every error that parsing a summary reports names the file. -/
theorem Summary.parse_error_file? {path : String} {data : ByteArray} {e : ReduceError}
    (h : Summary.parse path data = .error e) : e.file? = some path := by
  rcases forall₂_or_firstFailure (g := summaryLine path) ((decodeLines data).zipIdx 1) with
    ⟨ls, hls⟩ | ⟨e', he'⟩
  · -- every line reads: only a missing field is left
    rw [Summary.parse_of_forall₂ hls] at h
    split at h
    · cases h
    · cases h
      rfl
    · cases h
      rfl
  · rw [Summary.parse_of_firstFailure he'] at h
    cases h
    obtain ⟨-, l, -, -, -, hl⟩ := he'
    exact summaryLine_error_file? hl

end Throughput

namespace Reduction

open Latency Throughput

/-- The summary in one file: it must be opened, then parsed. -/
def fileSummary (d : Disk) (path : String) : Except ReduceError Summary := do
  let data ← (d.readFile path).mapError (ReduceError.io path)
  Summary.parse path data

theorem readSummaries_eq (d : Disk) (paths : List String) :
    readSummaries d paths = paths.mapM (fileSummary d) := rfl

/-- Opening a file, then parsing it with a parser whose every error names the file, fails only
with errors that name the file. -/
theorem open_then_parse_error_file? {α : Type} {d : Disk} {path : String}
    {parse : ByteArray → Except ReduceError α}
    (hparse : ∀ {data e}, parse data = .error e → e.file? = some path) {e : ReduceError}
    (h : ((d.readFile path).mapError (ReduceError.io path) >>= parse) = .error e) :
    e.file? = some path := by
  cases hr : d.readFile path with
  | error c =>
    rw [hr] at h
    cases h
    rfl
  | ok data =>
    rw [hr] at h
    exact hparse h

theorem fileSamples_error_file? {d : Disk} {path : String} {e : ReduceError}
    (h : fileSamples d path = .error e) : e.file? = some path :=
  open_then_parse_error_file? parseSamples_error_file? h

theorem fileSummary_error_file? {d : Disk} {path : String} {e : ReduceError}
    (h : fileSummary d path = .error e) : e.file? = some path :=
  open_then_parse_error_file? Summary.parse_error_file? h

/-- Why reading the files of a run fails, in the order they are read: the first latency file
that cannot be opened or parsed; else no samples at all; else the first summary that cannot be
opened or parsed. -/
inductive ReadFailure (d : Disk) (f : RunFiles) : ReduceError → Prop where
  /-- A latency file fails, every one before it having read. -/
  | latency {e : ReduceError} : FirstFailure (fileSamples d) f.allLatencies e → ReadFailure d f e
  /-- Every latency file reads, and they hold no sample. -/
  | noSamples {xss : List (List Binary64)} :
      List.Forall₂ (fun p xs => fileSamples d p = .ok xs) f.allLatencies xss → xss.flatten = [] →
      ReadFailure d f .noSamples
  /-- The latency files hold samples, and a summary fails, every one before it having read. -/
  | summary {xss : List (List Binary64)} {e : ReduceError} :
      List.Forall₂ (fun p xs => fileSamples d p = .ok xs) f.allLatencies xss → xss.flatten ≠ [] →
      FirstFailure (fileSummary d) f.allSummaries e → ReadFailure d f e

/-- Every file of a run reads: the latency files give samples, the table is that of all of them,
and the summaries read. -/
structure ReadsAll (d : Disk) (f : RunFiles) (table : PercentileTable) (sums : List Summary) :
    Prop where
  samples : ∃ xss, List.Forall₂ (fun p xs => fileSamples d p = .ok xs) f.allLatencies xss ∧
    PercentileTable.ofSamples xss.flatten = .ok table
  summaries : List.Forall₂ (fun p s => fileSummary d p = .ok s) f.allSummaries sums

theorem ofSamples_ok_of_ne_nil {xs : List Binary64} (h : xs ≠ []) :
    ∃ table, PercentileTable.ofSamples xs = .ok table := by
  unfold PercentileTable.ofSamples
  rw [if_neg (by simpa [List.isEmpty_iff] using h)]
  exact ⟨_, rfl⟩

/-- Reading a run: the latency files, the table of all their samples, then the summaries. -/
theorem readRun_eq_mapM (d : Disk) (f : RunFiles) :
    readRun d f =
      match f.allLatencies.mapM (fileSamples d) with
      | .error e => .error e
      | .ok xss =>
        match PercentileTable.ofSamples xss.flatten with
        | .error e => .error e
        | .ok table => (fun sums => (table, sums)) <$> f.allSummaries.mapM (fileSummary d) := by
  unfold readRun
  rw [readSamples_eq, readSummaries_eq]
  cases f.allLatencies.mapM (fileSamples d) with
  | error e => rfl
  | ok xss =>
    show (PercentileTable.ofSamples xss.flatten >>= fun table => _) = _
    dsimp only
    cases PercentileTable.ofSamples xss.flatten with
    | error e => rfl
    | ok table => cases f.allSummaries.mapM (fileSummary d) <;> rfl

theorem readRun_eq_error_iff {d : Disk} {f : RunFiles} {e : ReduceError} :
    readRun d f = .error e ↔ ReadFailure d f e := by
  rw [readRun_eq_mapM]
  constructor
  · intro h
    rcases forall₂_or_firstFailure (g := fileSamples d) f.allLatencies with
      ⟨xss, hxss⟩ | ⟨e', he'⟩
    · rw [mapM_eq_ok_iff.2 hxss] at h
      dsimp only at h
      by_cases hempty : xss.flatten = []
      · -- no samples: the table cannot be built
        rw [hempty] at h
        cases h
        exact .noSamples hxss hempty
      · obtain ⟨table, htable⟩ := ofSamples_ok_of_ne_nil hempty
        rw [htable] at h
        exact .summary hxss hempty (mapM_eq_error_iff.1 (map_eq_error_iff.1 h))
    · rw [mapM_eq_error_iff.2 he'] at h
      cases h
      exact .latency he'
  · intro h
    cases h with
    | latency hfirst => rw [mapM_eq_error_iff.2 hfirst]
    | noSamples hxss hempty =>
      rw [mapM_eq_ok_iff.2 hxss]
      simp only [hempty]
      rfl
    | summary hxss hne hfirst =>
      obtain ⟨table, htable⟩ := ofSamples_ok_of_ne_nil hne
      rw [mapM_eq_ok_iff.2 hxss]
      simp only [htable]
      rw [map_eq_error_iff, mapM_eq_error_iff]
      exact hfirst

theorem readRun_eq_ok_iff {d : Disk} {f : RunFiles} {table : PercentileTable}
    {sums : List Summary} : readRun d f = .ok (table, sums) ↔ ReadsAll d f table sums := by
  rw [readRun_eq_mapM]
  constructor
  · intro h
    cases hlat : f.allLatencies.mapM (fileSamples d) with
    | error e =>
      rw [hlat] at h
      cases h
    | ok xss =>
      rw [hlat] at h
      cases htable : PercentileTable.ofSamples xss.flatten with
      | error e =>
        simp only [htable] at h
        cases h
      | ok table' =>
        simp only [htable] at h
        obtain ⟨sums', hsums, hpair⟩ := map_eq_ok_iff.1 h
        cases hpair
        exact ⟨⟨xss, mapM_eq_ok_iff.1 hlat, htable⟩, mapM_eq_ok_iff.1 hsums⟩
  · rintro ⟨⟨xss, hxss, htable⟩, hsums⟩
    rw [mapM_eq_ok_iff.2 hxss]
    simp only [htable]
    rw [mapM_eq_ok_iff.2 hsums]
    rfl

/-- A reading failure names one of the run's files, or is the lack of samples. -/
theorem ReadFailure.file?_eq {d : Disk} {f : RunFiles} {e : ReduceError} (h : ReadFailure d f e) :
    e = .noSamples ∨ ∃ p ∈ f.allLatencies ++ f.allSummaries, e.file? = some p := by
  cases h with
  | latency hfirst =>
    obtain ⟨pre, p, post, hl, -, he⟩ := hfirst
    have hp : p ∈ f.allLatencies := by
      rw [hl]
      exact List.mem_append_right _ List.mem_cons_self
    exact .inr ⟨p, List.mem_append_left _ hp, fileSamples_error_file? he⟩
  | noSamples => exact .inl rfl
  | summary _ _ hfirst =>
    obtain ⟨pre, p, post, hl, -, he⟩ := hfirst
    have hp : p ∈ f.allSummaries := by
      rw [hl]
      exact List.mem_append_right _ List.mem_cons_self
    exact .inr ⟨p, List.mem_append_right _ hp, fileSummary_error_file? he⟩

/-- The only error of a throughput is the lack of a positive run time. -/
theorem aggregate_error_eq {sums : List Summary} {e : ReduceError}
    (h : aggregate sums = .ok (.error e)) : e = .zeroDuration := by
  rw [aggregate_eq] at h
  by_cases hfit : opsSum sums ≤ u64Max
  · rw [if_pos hfit] at h
    by_cases hle : Binary64.le (longest sums) Binary64.zero = true
    · rw [if_pos hle] at h
      cases h
      rfl
    · rw [if_neg hle] at h
      cases h
  · rw [if_neg hfit] at h
    cases h

/-- The ways reducing a run can end, with the disk each leaves. -/
inductive RunEnd (d : Disk) (f : RunFiles) :
    Except Overflow (Except ReduceError Binary64) × Disk → Prop where
  /-- A file does not read: the first failure in reading order, nothing written. -/
  | readFails {e : ReduceError} : ReadFailure d f e → RunEnd d f (.ok (.error e), d)
  /-- The sum of the operations overflows: the program stops, nothing written. -/
  | stops {table : PercentileTable} {sums : List Summary} {o : Overflow} :
      ReadsAll d f table sums → aggregate sums = .error o → RunEnd d f (.error o, d)
  /-- No throughput: nothing written. -/
  | noThroughput {table : PercentileTable} {sums : List Summary} {e : ReduceError} :
      ReadsAll d f table sums → aggregate sums = .ok (.error e) → RunEnd d f (.ok (.error e), d)
  /-- The table cannot be written: nothing written. -/
  | tableFails {table : PercentileTable} {sums : List Summary} {x : Binary64} {c : IoError} :
      ReadsAll d f table sums → aggregate sums = .ok (.ok x) → d.fileSlot f.cdf = .error c →
      RunEnd d f (.ok (.error (.io f.cdf c)), d)
  /-- The throughput cannot be written: the table alone is written, at its place. -/
  | throughputFails {table : PercentileTable} {sums : List Summary} {x : Binary64}
      {p : List String} {c : IoError} :
      ReadsAll d f table sums → aggregate sums = .ok (.ok x) → d.fileSlot f.cdf = .ok p →
      (d.put p (.file table.text.toUTF8)).fileSlot f.throughput = .error c →
      RunEnd d f (.ok (.error (.io f.throughput c)), d.put p (.file table.text.toUTF8))
  /-- The table, then the throughput, each written at its place, and nothing else. -/
  | written {table : PercentileTable} {sums : List Summary} {x : Binary64} {p q : List String} :
      ReadsAll d f table sums → aggregate sums = .ok (.ok x) → d.fileSlot f.cdf = .ok p →
      (d.put p (.file table.text.toUTF8)).fileSlot f.throughput = .ok q →
      RunEnd d f (.ok (.ok x), (d.put p (.file table.text.toUTF8)).put q
        (.file (Binary64.fixedText 2 x ++ "\n").toUTF8))

theorem reduceRun_runEnd (f : RunFiles) (d : Disk) : RunEnd d f ((reduceRun f).runFrom d) := by
  rw [reduceRun_runFrom]
  cases hread : readRun d f with
  | error e => exact .readFails (readRun_eq_error_iff.1 hread)
  | ok ts =>
    obtain ⟨table, sums⟩ := ts
    have hall := readRun_eq_ok_iff.1 hread
    dsimp only
    cases hagg : aggregate sums with
    | error o => exact .stops hall hagg
    | ok res =>
      cases res with
      | error e => exact .noThroughput hall hagg
      | ok x =>
        -- the table is written first, then the throughput
        dsimp only
        rw [writeText_eq]
        cases hp : d.fileSlot f.cdf with
        | error c => exact .tableFails hall hagg hp
        | ok p =>
          dsimp only
          rw [writeText_eq]
          cases hq : (d.put p (.file table.text.toUTF8)).fileSlot f.throughput with
          | error c => exact .throughputFails hall hagg hp hq
          | ok q => exact .written hall hagg hp hq

section Ends

variable {d : Disk} {f : RunFiles} {r : Except Overflow (Except ReduceError Binary64) × Disk}

/-- A stop leaves the disk as it was. -/
theorem RunEnd.disk_of_stop (h : RunEnd d f r) {o : Overflow} (ho : r.1 = .error o) : r.2 = d := by
  cases h with
  | throughputFails _ _ _ _ => exact absurd ho (by simp)
  | written _ _ _ _ => exact absurd ho (by simp)
  | _ => rfl

/-- An error other than one writing the table or the throughput leaves the disk as it was. -/
theorem RunEnd.disk_of_error (h : RunEnd d f r) {e : ReduceError} (he : r.1 = .ok (.error e))
    (hcdf : ∀ c, e ≠ .io f.cdf c) (hthr : ∀ c, e ≠ .io f.throughput c) : r.2 = d := by
  cases h with
  | throughputFails _ _ _ _ =>
    cases he
    exact absurd rfl (hthr _)
  | written _ _ _ _ => cases he
  | _ => rfl

/-- An error writing the throughput leaves the table alone written. -/
theorem RunEnd.disk_of_throughput_error (h : RunEnd d f r) {c : IoError}
    (he : r.1 = .ok (.error (.io f.throughput c))) :
    ∃ table sums p, ReadsAll d f table sums ∧ d.fileSlot f.cdf = .ok p ∧
      r.2 = d.put p (.file table.text.toUTF8) := by
  cases h with
  | readFails hfail =>
    -- reading names the run's own files, and the throughput is none of them
    cases he
    rcases hfail.file?_eq with hno | ⟨p, hp, hname⟩
    · cases hno
    · cases hname
      exact absurd hp (RunFiles.throughput_not_mem f)
  | stops _ _ => cases he
  | noThroughput _ hagg =>
    cases he
    cases aggregate_error_eq hagg
  | tableFails _ _ _ =>
    simp only [Except.ok.injEq, Except.error.injEq, ReduceError.io.injEq] at he
    exact absurd he.1 (RunFiles.cdf_ne_throughput f)
  | throughputFails hreads _ hp _ => exact ⟨_, _, _, hreads, hp, rfl⟩
  | written _ _ _ _ => cases he

/-- A throughput leaves the table and the throughput written, and nothing else changed. -/
theorem RunEnd.disk_of_ok (h : RunEnd d f r) {x : Binary64} (hx : r.1 = .ok (.ok x)) :
    ∃ table sums p q, ReadsAll d f table sums ∧ aggregate sums = .ok (.ok x) ∧
      d.fileSlot f.cdf = .ok p ∧ (d.put p (.file table.text.toUTF8)).fileSlot f.throughput = .ok q ∧
      r.2 = (d.put p (.file table.text.toUTF8)).put q
        (.file (Binary64.fixedText 2 x ++ "\n").toUTF8) := by
  cases h with
  | written hreads hagg hp hq =>
    cases hx
    exact ⟨_, _, _, _, hreads, hagg, hp, hq, rfl⟩
  | _ => cases hx

end Ends

/-- Reducing a run reads every latency file, all the samples and every summary, and computes the
throughput, before it writes anything.  It ends one of the ways `RunEnd` lists: the first
failure in reading order is reported, and then, like a stop on an overflowing sum of operations
or a missing throughput, it leaves the disk as it was; so does every error other than one
writing the table or the throughput.  A failure to write the throughput leaves the table alone
written, and a throughput leaves exactly the table and the throughput written. -/
theorem reduceRun_reads_before_writing (f : RunFiles) (d : Disk) :
    RunEnd d f ((reduceRun f).runFrom d) ∧
    (∀ o, ((reduceRun f).runFrom d).1 = .error o → ((reduceRun f).runFrom d).2 = d) ∧
    (∀ e, ((reduceRun f).runFrom d).1 = .ok (.error e) → (∀ c, e ≠ .io f.cdf c) →
      (∀ c, e ≠ .io f.throughput c) → ((reduceRun f).runFrom d).2 = d) ∧
    (∀ c, ((reduceRun f).runFrom d).1 = .ok (.error (.io f.throughput c)) →
      ∃ table sums p, ReadsAll d f table sums ∧ d.fileSlot f.cdf = .ok p ∧
        ((reduceRun f).runFrom d).2 = d.put p (.file table.text.toUTF8)) ∧
    (∀ x, ((reduceRun f).runFrom d).1 = .ok (.ok x) →
      ∃ table sums p q, ReadsAll d f table sums ∧ aggregate sums = .ok (.ok x) ∧
        d.fileSlot f.cdf = .ok p ∧
        (d.put p (.file table.text.toUTF8)).fileSlot f.throughput = .ok q ∧
        ((reduceRun f).runFrom d).2 = (d.put p (.file table.text.toUTF8)).put q
          (.file (Binary64.fixedText 2 x ++ "\n").toUTF8)) := by
  have h := reduceRun_runEnd f d
  exact ⟨h, fun _ ho => h.disk_of_stop ho, fun _ he hcdf hthr => h.disk_of_error he hcdf hthr,
    fun _ he => h.disk_of_throughput_error he, fun _ hx => h.disk_of_ok hx⟩

end Reduction

end ClusterSweep
