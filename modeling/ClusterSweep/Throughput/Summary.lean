import ClusterSweep.Binary64.Read
import ClusterSweep.Checked
import ClusterSweep.Reduction.Error
import ClusterSweep.Text.Blank
import ClusterSweep.Text.Integer
import ClusterSweep.Text.Lines

/-!
# Execution summaries

Every client reports its run in an execution summary: lines of blank-separated columns, the
first a name and the second its value.  Two names count, `totalTime` (seconds, any number
`Binary64.read?` accepts, NaN and infinities too) and `totalOps` (an unsigned 64-bit count);
other names are ignored and a later line overrides an earlier one.  Blank lines are skipped,
but every other line needs a second column, or it is rejected whole as a token.  After the
last line a missing `totalTime` is reported before a missing `totalOps`.

The throughput of a run (`aggregate`) is the operations of all clients, summed in 64-bit words,
divided by the longest run time, the NaN times ignored.  A run whose longest time is not
positive has no throughput.
-/

namespace ClusterSweep.Throughput

open ClusterSweep.Text

/-- What one client reports about its run. -/
structure Summary where
  /-- The run time in seconds. -/
  totalTime : Binary64
  /-- The operations executed. -/
  totalOps : Nat
  deriving DecidableEq, Repr

/-- The fields read so far from a summary file. -/
structure Fields where
  /-- The last `totalTime`. -/
  time : Option Binary64 := none
  /-- The last `totalOps`. -/
  ops : Option Nat := none

/-- Reads line number `n` into the fields. -/
def readLine (path : String) (n : Nat) (acc : Fields) (line : String) : Except ReduceError Fields :=
  match words line with
  | [] => pure acc
  | [_] => .error (.parse path n line)
  | name :: value :: _ =>
    if name == "totalTime" then
      match Binary64.read? value with
      | some x => pure { acc with time := some x }
      | none => .error (.parse path n value)
    else if name == "totalOps" then
      match readUnsigned 64 value with
      | .ok k => pure { acc with ops := some k }
      | .error _ => .error (.parse path n value)
    else pure acc

/-- Reads the lines from number `n` on. -/
def readFrom (path : String) : Nat → Fields → List (Option String) → Except ReduceError Fields
  | _, acc, [] => pure acc
  | n, acc, some line :: rest => do readFrom path (n + 1) (← readLine path n acc line) rest
  | _, _, none :: _ => .error (.io path .invalidUtf8)

/-- The summary in a file. -/
def Summary.parse (path : String) (data : ByteArray) : Except ReduceError Summary := do
  let f ← readFrom path 1 {} (decodeLines data)
  match f.time, f.ops with
  | some t, some o => pure ⟨t, o⟩
  | none, _ => .error (.missingField path "totalTime")
  | _, none => .error (.missingField path "totalOps")

/-- The operations per second of a run; the sum of the operations can overflow. -/
def aggregate (summaries : List Summary) : Except Overflow (Except ReduceError Binary64) := do
  let ops ← summaries.foldlM (fun acc s => checkedAdd u64Max acc s.totalOps) 0
  let longest := summaries.foldl (fun acc s => Binary64.max acc s.totalTime) Binary64.zero
  if Binary64.le longest Binary64.zero then pure (.error .zeroDuration)
  else pure (.ok (Binary64.div (Binary64.ofNat ops) longest))

end ClusterSweep.Throughput
