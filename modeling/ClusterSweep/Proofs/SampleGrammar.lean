import Mathlib
import ClusterSweep.Reduction.Run
import ClusterSweep.Proofs.ReadingOrder
import ClusterSweep.Proofs.ShortestReadsBack

/-!
# The grammar of latency files

A latency file is read line by line, as a reader cuts it (`Text.splitLines`), the lines numbered
from one, skipped lines included.  A line that is not UTF-8 stops the reading with an `io` error;
a line that starts with a timestamp (`StartsWithTimestamp`: ASCII digits, a point, ASCII digits
and a space) holds no sample; any other line is cut at its commas, each item trimmed of its
blanks (`Text.trimList_spec`) and dropped when empty, and every item left must read as a number
other than NaN (`tokenSample`), or the line fails with a `parse` error naming the line and the
item.  The first line that fails, and within it the first item, decides the error; otherwise
the samples of all lines follow one another in file order (`parseSamples_grammar`).

The latency files of a run are read in order, each opened and then parsed (`fileSamples`); the
first file that fails decides the error and otherwise their samples follow one another.  A file
that holds one sample per line, each in its shortest text (`Simulation.samplesText`), reads back
as its samples whenever none of them is a NaN (`Latency.parseSamples_samplesText`).
-/

namespace ClusterSweep

namespace Text

/-- Trimming takes off exactly the blanks at either end: the text is the trimmed text with
blanks on either side, and the trimmed text neither starts nor ends with a blank. -/
theorem trimList_spec (cs : List Char) :
    ∃ front back, cs = front ++ trimList cs ++ back ∧ (∀ c ∈ front, isBlank c = true) ∧
      (∀ c ∈ back, isBlank c = true) ∧ (∀ c ∈ (trimList cs).head?, isBlank c = false) ∧
      (∀ c ∈ (trimList cs).getLast?, isBlank c = false) := by
  -- `inner` is `cs` without its leading blanks; the trimmed text is `inner` without its trailing ones
  set inner := cs.dropWhile isBlank with hinner
  set kept := inner.reverse.dropWhile isBlank with hkept
  have htrim : trimList cs = kept.reverse := rfl
  have hinner_eq : inner = kept.reverse ++ (inner.reverse.takeWhile isBlank).reverse := by
    rw [← List.reverse_append, hkept, List.takeWhile_append_dropWhile, List.reverse_reverse]
  refine ⟨cs.takeWhile isBlank, (inner.reverse.takeWhile isBlank).reverse, ?_, ?_, ?_, ?_, ?_⟩
  · rw [htrim, List.append_assoc, ← hinner_eq]
    exact List.takeWhile_append_dropWhile.symm
  · exact fun c hc => List.mem_takeWhile_imp hc
  · exact fun c hc => List.mem_takeWhile_imp (List.mem_reverse.1 hc)
  · -- the trimmed text starts where `inner` does
    intro c hc
    rw [htrim] at hc
    have hstart : inner.head? = some c := by
      rw [hinner_eq, List.head?_append, Option.mem_def.1 hc]
      rfl
    have hhead := List.head?_dropWhile_not isBlank cs
    rw [← hinner, hstart] at hhead
    exact hhead
  · -- and ends where `kept`, read backwards, starts
    intro c hc
    rw [htrim, List.getLast?_reverse] at hc
    have hhead := List.head?_dropWhile_not isBlank inner.reverse
    rw [← hkept, Option.mem_def.1 hc] at hhead
    exact hhead

end Text

namespace Latency

open Text

/-- A line starts with a timestamp: one or more ASCII digits, a point, one or more ASCII digits
and a space. -/
def StartsWithTimestamp (line : String) : Prop :=
  ∃ whole frac rest, whole ≠ [] ∧ (∀ c ∈ whole, c.isDigit = true) ∧ frac ≠ [] ∧
    (∀ c ∈ frac, c.isDigit = true) ∧ line.toList = whole ++ '.' :: (frac ++ ' ' :: rest)

/-- The timestamp test reads the longest runs of digits, which is the only way a timestamp can
start a line. -/
theorem isTimestampLine_iff (line : String) :
    isTimestampLine line = true ↔ StartsWithTimestamp line := by
  unfold isTimestampLine StartsWithTimestamp
  dsimp only
  constructor
  · intro h
    split at h
    next rest hdot =>
      simp only [Bool.and_eq_true, Bool.not_eq_true', List.isEmpty_eq_false_iff, beq_iff_eq] at h
      obtain ⟨⟨hwhole, hfrac⟩, hspace⟩ := h
      obtain ⟨tail, htail⟩ : ∃ tail, rest.dropWhile Char.isDigit = ' ' :: tail := by
        cases hd : rest.dropWhile Char.isDigit with
        | nil => simp [hd] at hspace
        | cons c tail =>
          simp only [hd, List.head?_cons, Option.some.injEq] at hspace
          exact ⟨tail, by rw [hspace]⟩
      refine ⟨_, _, tail, hwhole, fun c hc => List.mem_takeWhile_imp hc, hfrac,
        fun c hc => List.mem_takeWhile_imp hc, ?_⟩
      calc line.toList
          = line.toList.takeWhile Char.isDigit ++ line.toList.dropWhile Char.isDigit :=
            List.takeWhile_append_dropWhile.symm
        _ = line.toList.takeWhile Char.isDigit ++ '.' :: (rest.takeWhile Char.isDigit ++
            rest.dropWhile Char.isDigit) := by rw [hdot, List.takeWhile_append_dropWhile]
        _ = _ := by rw [htail]
    next => simp at h
  · rintro ⟨whole, frac, rest, hw, hwd, hf, hfd, hline⟩
    -- the runs of digits end at the point and at the space
    have hdot : Char.isDigit '.' = false := by decide
    have hsp : Char.isDigit ' ' = false := by decide
    have htake : (whole ++ '.' :: (frac ++ ' ' :: rest)).takeWhile Char.isDigit = whole := by
      rw [List.takeWhile_append_of_pos hwd, List.takeWhile_cons_of_neg (by simp [hdot]),
        List.append_nil]
    have hdrop : (whole ++ '.' :: (frac ++ ' ' :: rest)).dropWhile Char.isDigit =
        '.' :: (frac ++ ' ' :: rest) := by
      rw [List.dropWhile_append_of_pos hwd, List.dropWhile_cons_of_neg (by simp [hdot])]
    have hftake : (frac ++ ' ' :: rest).takeWhile Char.isDigit = frac := by
      rw [List.takeWhile_append_of_pos hfd, List.takeWhile_cons_of_neg (by simp [hsp]),
        List.append_nil]
    have hfdrop : (frac ++ ' ' :: rest).dropWhile Char.isDigit = ' ' :: rest := by
      rw [List.dropWhile_append_of_pos hfd, List.dropWhile_cons_of_neg (by simp [hsp])]
    rw [hline, hdrop]
    simp [htake, hftake, hfdrop, hw, hf]

/-- An item as a sample: a number other than NaN, or the error naming the item and its line. -/
def tokenSample (path : String) (n : Nat) (tok : String) : Except ReduceError Binary64 :=
  match Binary64.read? tok with
  | some x => if x.isNaN then .error (.parse path n tok) else .ok x
  | none => .error (.parse path n tok)

theorem tokenSample_eq_ok_iff {path : String} {n : Nat} {tok : String} {x : Binary64} :
    tokenSample path n tok = .ok x ↔ Binary64.read? tok = some x ∧ x.isNaN = false := by
  unfold tokenSample
  split
  · next y hy =>
    rw [hy, Option.some.injEq]
    by_cases hnan : y.isNaN = true
    · rw [if_pos hnan]
      constructor
      · intro h
        cases h
      · rintro ⟨rfl, hx⟩
        rw [hnan] at hx
        cases hx
    · rw [if_neg hnan, Except.ok.injEq]
      constructor
      · rintro rfl
        exact ⟨rfl, Bool.eq_false_iff.2 hnan⟩
      · rintro ⟨rfl, -⟩
        rfl
  · next hnone =>
    rw [hnone]
    constructor
    · intro h
      cases h
    · rintro ⟨h, -⟩
      cases h

theorem tokenSample_eq_error_iff {path : String} {n : Nat} {tok : String} {e : ReduceError} :
    tokenSample path n tok = .error e ↔
      e = .parse path n tok ∧ ∀ x, Binary64.read? tok = some x → x.isNaN = true := by
  unfold tokenSample
  split
  · next y hy =>
    rw [hy]
    by_cases hnan : y.isNaN = true
    · rw [if_pos hnan, Except.error.injEq]
      constructor
      · rintro rfl
        exact ⟨rfl, fun x hx => by cases hx; exact hnan⟩
      · rintro ⟨rfl, -⟩
        rfl
    · rw [if_neg hnan]
      constructor
      · intro h
        cases h
      · rintro ⟨-, hall⟩
        exact absurd (hall y rfl) hnan
  · next hnone =>
    rw [hnone, Except.error.injEq]
    constructor
    · rintro rfl
      exact ⟨rfl, fun x hx => by cases hx⟩
    · rintro ⟨rfl, -⟩
      rfl

/-- The samples of a line that is not a timestamp are those of its items, read in order. -/
theorem lineSamples_eq (path : String) (n : Nat) (line : String) :
    lineSamples path n line =
      if isTimestampLine line then pure [] else (items line).mapM (tokenSample path n) := rfl

/-- The samples of a line as the reader hands it out with its number: `none` is a line that is
not UTF-8. -/
def samplesOfLine (path : String) : Option String × Nat → Except ReduceError (List Binary64)
  | (some line, n) => lineSamples path n line
  | (none, _) => .error (.io path .invalidUtf8)

/-- A line that does not start with a timestamp holds the samples of its items, read in order. -/
theorem samplesOfLine_of_not_timestamp {path line : String} {n : Nat}
    (h : ¬ StartsWithTimestamp line) :
    samplesOfLine path (some line, n) = (items line).mapM (tokenSample path n) := by
  rw [samplesOfLine, lineSamples_eq, if_neg]
  exact fun hts => h ((isTimestampLine_iff line).1 hts)

/-- Reading the lines from number `n` on reads each numbered line in turn and joins their
samples. -/
theorem samplesFrom_eq (path : String) : ∀ (n : Nat) (lines : List (Option String)),
    samplesFrom path n lines = List.flatten <$> (lines.zipIdx n).mapM (samplesOfLine path)
  | _, [] => rfl
  | n, some line :: rest => by
    rw [samplesFrom, List.zipIdx_cons, List.mapM_cons, samplesFrom_eq path (n + 1) rest]
    simp only [samplesOfLine]
    cases lineSamples path n line with
    | error e => rfl
    | ok xs => cases (rest.zipIdx (n + 1)).mapM (samplesOfLine path) <;> rfl
  | n, none :: rest => rfl

theorem parseSamples_eq (path : String) (data : ByteArray) :
    parseSamples path data =
      List.flatten <$> ((decodeLines data).zipIdx 1).mapM (samplesOfLine path) :=
  samplesFrom_eq path 1 (decodeLines data)

end Latency

namespace Reduction

open Latency

/-- The samples of one latency file: it must be opened, then parsed. -/
def fileSamples (d : Disk) (path : String) : Except ReduceError (List Binary64) := do
  let data ← (d.readFile path).mapError (ReduceError.io path)
  parseSamples path data

/-- The latency files are read one after the other and their samples joined. -/
theorem readSamples_eq (d : Disk) (paths : List String) :
    readSamples d paths = List.flatten <$> paths.mapM (fileSamples d) := by
  have h := foldlM_append_eq (fileSamples d) paths []
  simp only [fileSamples, bind_assoc, List.nil_append] at h
  exact h

end Reduction

namespace Latency

open Text Reduction

/-- A latency file is read line by line, as a reader cuts it: each line is decoded on its own and
numbered from one, skipped lines included.  The first line that fails decides the error, and
otherwise the samples of all lines follow one another.  A line that is not UTF-8 fails with an
`io` error, a line starting with a timestamp holds no sample, and any other line holds its
items, cut at commas, trimmed and without the empty ones, each of which must read as a number
other than NaN, the first one that does not deciding the line's `parse` error.  The latency files
of a run are read in order, the first that fails deciding the error, and their samples follow
one another.  A file written one sample per line, each in its shortest text, reads back as its
samples when none is a NaN. -/
theorem parseSamples_grammar (path : String) (data : ByteArray) :
    decodeLines data = (splitLines data.toList).map decodeLine ∧
    (∀ e, parseSamples path data = .error e ↔
      FirstFailure (samplesOfLine path) ((decodeLines data).zipIdx 1) e) ∧
    (∀ xs, parseSamples path data = .ok xs ↔
      ∃ yss, List.Forall₂ (fun l ys => samplesOfLine path l = .ok ys)
        ((decodeLines data).zipIdx 1) yss ∧ yss.flatten = xs) ∧
    (∀ n, samplesOfLine path (none, n) = .error (.io path .invalidUtf8)) ∧
    (∀ n line, StartsWithTimestamp line → samplesOfLine path (some line, n) = .ok []) ∧
    (∀ n line e, ¬ StartsWithTimestamp line →
      (samplesOfLine path (some line, n) = .error e ↔ FirstFailure (tokenSample path n) (items line) e)) ∧
    (∀ n line ys, ¬ StartsWithTimestamp line →
      (samplesOfLine path (some line, n) = .ok ys ↔
        List.Forall₂ (fun tok y => tokenSample path n tok = .ok y) (items line) ys)) ∧
    (∀ n tok x, tokenSample path n tok = .ok x ↔ Binary64.read? tok = some x ∧ x.isNaN = false) ∧
    (∀ n tok e, tokenSample path n tok = .error e ↔
      e = .parse path n tok ∧ ∀ x, Binary64.read? tok = some x → x.isNaN = true) ∧
    (∀ d paths e, readSamples d paths = .error e ↔ FirstFailure (fileSamples d) paths e) ∧
    (∀ d paths xs, readSamples d paths = .ok xs ↔
      ∃ xss, List.Forall₂ (fun p ys => fileSamples d p = .ok ys) paths xss ∧ xss.flatten = xs) ∧
    (∀ xs : List Binary64, (∀ x ∈ xs, x.isNaN = false) →
      parseSamples path (Simulation.samplesText xs).toUTF8 = .ok xs) := by
  refine ⟨decodeLines_eq data, fun e => ?_, fun xs => ?_, fun n => rfl, fun n line hts => ?_,
    fun n line e hts => ?_, fun n line ys hts => ?_, fun n tok x => tokenSample_eq_ok_iff,
    fun n tok e => tokenSample_eq_error_iff, fun d paths e => ?_, fun d paths xs => ?_,
    fun xs hxs => parseSamples_samplesText path hxs⟩
  · rw [parseSamples_eq, map_eq_error_iff, mapM_eq_error_iff]
  · simp only [parseSamples_eq, map_eq_ok_iff, mapM_eq_ok_iff]
  · simp [samplesOfLine, lineSamples_eq, (isTimestampLine_iff line).2 hts, pure, Except.pure]
  · rw [samplesOfLine_of_not_timestamp hts, mapM_eq_error_iff]
  · rw [samplesOfLine_of_not_timestamp hts, mapM_eq_ok_iff]
  · rw [readSamples_eq, map_eq_error_iff, mapM_eq_error_iff]
  · simp only [readSamples_eq, map_eq_ok_iff, mapM_eq_ok_iff]

end Latency

end ClusterSweep
