import Mathlib
import ClusterSweep.Throughput.Summary
import ClusterSweep.Proofs.ReadingOrder

/-!
# The grammar of execution summaries

An execution summary is read line by line, as a reader cuts it, the lines numbered from one.
Each line says something on its own (`Throughput.summaryLine`): a line that is not UTF-8 is an
`io` error, a blank line says nothing, a line with a name and no second column is a `parse`
error naming the whole line, whatever the name; a `totalTime` line gives a run time and a
`totalOps` line a count of operations, or a `parse` error naming the second column when it does
not read; other lines, and the columns after the second, say nothing.

Reading keeps the last run time and the last count it has met (`SummaryLine.update`), so a later
line overrides an earlier one (`foldl_update_time`, `foldl_update_ops`).  The first line that
fails decides the error; when none fails, a missing run time is reported before a missing count
(`Summary.parse_grammar`).
-/

namespace ClusterSweep.Throughput

open Text

/-- What one line of an execution summary says on its own. -/
inductive SummaryLine where
  /-- A `totalTime` line and the run time it gives. -/
  | time (t : Binary64)
  /-- A `totalOps` line and the count it gives. -/
  | ops (k : Nat)
  /-- A blank line, or a line of another name. -/
  | other
  deriving DecidableEq, Repr

namespace SummaryLine

/-- The run time a line gives. -/
def time? : SummaryLine → Option Binary64
  | .time t => some t
  | _ => none

/-- The count of operations a line gives. -/
def ops? : SummaryLine → Option Nat
  | .ops k => some k
  | _ => none

/-- The fields read so far, after the line. -/
def update (f : Fields) : SummaryLine → Fields
  | .time t => { f with time := some t }
  | .ops k => { f with ops := some k }
  | .other => f

@[simp] theorem update_time (f : Fields) (l : SummaryLine) : (update f l).time = l.time?.or f.time := by
  cases l <;> rfl

@[simp] theorem update_ops (f : Fields) (l : SummaryLine) : (update f l).ops = l.ops?.or f.ops := by
  cases l <;> rfl

/-- After a run of lines the run time is that of the last line that gives one. -/
theorem foldl_update_time : ∀ (ls : List SummaryLine) (f : Fields),
    (ls.foldl update f).time = (ls.filterMap time?).getLast?.or f.time
  | [], f => by simp
  | l :: ls, f => by
    rw [List.foldl_cons, foldl_update_time ls, update_time, List.filterMap_cons]
    cases l.time? <;> simp [List.getLast?_cons]

/-- After a run of lines the count is that of the last line that gives one. -/
theorem foldl_update_ops : ∀ (ls : List SummaryLine) (f : Fields),
    (ls.foldl update f).ops = (ls.filterMap ops?).getLast?.or f.ops
  | [], f => by simp
  | l :: ls, f => by
    rw [List.foldl_cons, foldl_update_ops ls, update_ops, List.filterMap_cons]
    cases l.ops? <;> simp [List.getLast?_cons]

end SummaryLine

/-- Line number `n` of a summary read on its own, `none` being a line that is not UTF-8. -/
def summaryLine (path : String) : Option String × Nat → Except ReduceError SummaryLine
  | (none, _) => .error (.io path .invalidUtf8)
  | (some line, n) =>
    match words line with
    | [] => .ok .other
    | [_] => .error (.parse path n line)
    | name :: value :: _ =>
      if name = "totalTime" then
        match Binary64.read? value with
        | some t => .ok (.time t)
        | none => .error (.parse path n value)
      else if name = "totalOps" then
        match readUnsigned 64 value with
        | .ok k => .ok (.ops k)
        | .error _ => .error (.parse path n value)
      else .ok .other

/-- Reading a line into the fields is reading it on its own, then keeping what it gives. -/
theorem readLine_eq (path : String) (n : Nat) (acc : Fields) (line : String) :
    readLine path n acc line = (SummaryLine.update acc) <$> summaryLine path (some line, n) := by
  rcases hw : words line with _ | ⟨name, _ | ⟨value, rest⟩⟩
  · simp only [readLine, summaryLine, hw]
    rfl
  · simp only [readLine, summaryLine, hw]
    rfl
  · simp only [readLine, summaryLine, hw]
    -- the name decides which column reader applies, if any
    by_cases htime : name = "totalTime"
    · simp only [htime, beq_self_eq_true, if_true]
      cases Binary64.read? value <;> rfl
    · by_cases hops : name = "totalOps"
      · simp only [hops, beq_self_eq_true, if_true]
        cases readUnsigned 64 value <;> rfl
      · have htime' : (name == "totalTime") = false := beq_eq_false_iff_ne.2 htime
        have hops' : (name == "totalOps") = false := beq_eq_false_iff_ne.2 hops
        simp only [htime', hops', if_neg htime, if_neg hops, Bool.false_eq_true, if_false]
        rfl

/-- Reading the lines from number `n` on reads each numbered line on its own and keeps, field by
field, what the last line giving it gave. -/
theorem readFrom_eq (path : String) : ∀ (n : Nat) (acc : Fields) (lines : List (Option String)),
    readFrom path n acc lines =
      (fun ls => ls.foldl SummaryLine.update acc) <$> (lines.zipIdx n).mapM (summaryLine path)
  | _, acc, [] => rfl
  | n, acc, some line :: rest => by
    rw [readFrom, List.zipIdx_cons, List.mapM_cons, readLine_eq]
    cases summaryLine path (some line, n) with
    | error e => rfl
    | ok l =>
      simp only [Functor.map, Except.map, bind, Except.bind]
      rw [readFrom_eq path (n + 1) (SummaryLine.update acc l) rest]
      cases (rest.zipIdx (n + 1)).mapM (summaryLine path) <;> rfl
  | n, acc, none :: rest => rfl

/-- A summary with a line that fails is rejected with the first such line's error. -/
theorem Summary.parse_of_firstFailure {path : String} {data : ByteArray} {e : ReduceError}
    (he : FirstFailure (summaryLine path) ((decodeLines data).zipIdx 1) e) :
    Summary.parse path data = .error e := by
  rw [Summary.parse, readFrom_eq, mapM_eq_error_iff.2 he]
  rfl

/-- A summary whose lines all read keeps the last run time and the last count, a missing run
time reported before a missing count. -/
theorem Summary.parse_of_forall₂ {path : String} {data : ByteArray} {ls : List SummaryLine}
    (hls : List.Forall₂ (fun l s => summaryLine path l = .ok s) ((decodeLines data).zipIdx 1) ls) :
    Summary.parse path data =
      match (ls.filterMap SummaryLine.time?).getLast?, (ls.filterMap SummaryLine.ops?).getLast? with
      | some t, some k => .ok ⟨t, k⟩
      | none, _ => .error (.missingField path "totalTime")
      | some _, none => .error (.missingField path "totalOps") := by
  rw [Summary.parse, readFrom_eq, mapM_eq_ok_iff.2 hls]
  simp only [Functor.map, Except.map, bind, Except.bind]
  rw [SummaryLine.foldl_update_time, SummaryLine.foldl_update_ops]
  cases (ls.filterMap SummaryLine.time?).getLast? <;>
    cases (ls.filterMap SummaryLine.ops?).getLast? <;> rfl

/-- An execution summary is read line by line, as a reader cuts it, the lines numbered from one.
The first line that fails decides the error.  When every line reads, the run time and the count
are those of the last lines giving them, and a missing run time is reported before a missing
count.  Every summary is read one way or the other. -/
theorem Summary.parse_grammar (path : String) (data : ByteArray) :
    decodeLines data = (splitLines data.toList).map decodeLine ∧
    (∀ e, FirstFailure (summaryLine path) ((decodeLines data).zipIdx 1) e →
      Summary.parse path data = .error e) ∧
    (∀ ls, List.Forall₂ (fun l s => summaryLine path l = .ok s) ((decodeLines data).zipIdx 1) ls →
      Summary.parse path data =
        match (ls.filterMap SummaryLine.time?).getLast?, (ls.filterMap SummaryLine.ops?).getLast? with
        | some t, some k => .ok ⟨t, k⟩
        | none, _ => .error (.missingField path "totalTime")
        | some _, none => .error (.missingField path "totalOps")) ∧
    ((∃ e, FirstFailure (summaryLine path) ((decodeLines data).zipIdx 1) e) ∨
      ∃ ls, List.Forall₂ (fun l s => summaryLine path l = .ok s) ((decodeLines data).zipIdx 1) ls) :=
  ⟨decodeLines_eq data, fun _ he => Summary.parse_of_firstFailure he,
    fun _ hls => Summary.parse_of_forall₂ hls, (forall₂_or_firstFailure _).symm⟩

end ClusterSweep.Throughput
