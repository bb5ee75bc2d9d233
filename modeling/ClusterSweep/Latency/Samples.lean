import ClusterSweep.Binary64.Read
import ClusterSweep.Reduction.Error
import ClusterSweep.Text.Blank
import ClusterSweep.Text.Lines

/-!
# Latency samples

A latency file holds one or more samples per line, separated by commas:

    line      ::= timestamp " " anything  |  item ("," item)*
    timestamp ::= digit+ "." digit+
    item      ::= blank* (number blank*)?

A line that starts with a timestamp and a space is a log line and is skipped.  Blanks around a
number are dropped and empty items are ignored; every other item must be a number other than
NaN (`Binary64.read?`), or the file is rejected with the item and the line's number, counting
from one and counting skipped lines.  Lines are read in order, so a bad item on an earlier line
is reported before a later line that is not UTF-8.
-/

namespace ClusterSweep.Latency

open ClusterSweep.Text

/-- Whether a line starts with a timestamp `digits.digits` and a space. -/
def isTimestampLine (line : String) : Bool :=
  let cs := line.toList
  let whole := cs.takeWhile Char.isDigit
  match cs.dropWhile Char.isDigit with
  | '.' :: rest =>
    let frac := rest.takeWhile Char.isDigit
    !whole.isEmpty && !frac.isEmpty && (rest.dropWhile Char.isDigit).head? == some ' '
  | _ => false

/-- The non-empty items of a line, without their surrounding blanks. -/
def items (line : String) : List String :=
  (((line.toList.splitOn ',').map String.ofList).map trim).filter (!·.isEmpty)

/-- The samples of line number `n` of the file at `path`. -/
def lineSamples (path : String) (n : Nat) (line : String) :
    Except ReduceError (List Binary64) :=
  if isTimestampLine line then pure []
  else (items line).mapM fun tok =>
    match Binary64.read? tok with
    | some x => if x.isNaN then .error (.parse path n tok) else pure x
    | none => .error (.parse path n tok)

/-- The samples of the lines from number `n` on. -/
def samplesFrom (path : String) : Nat → List (Option String) → Except ReduceError (List Binary64)
  | _, [] => pure []
  | n, some line :: rest => do
    let xs ← lineSamples path n line
    let ys ← samplesFrom path (n + 1) rest
    pure (xs ++ ys)
  | _, none :: _ => .error (.io path .invalidUtf8)

/-- The samples of a latency file, in file order. -/
def parseSamples (path : String) (data : ByteArray) : Except ReduceError (List Binary64) :=
  samplesFrom path 1 (decodeLines data)

end ClusterSweep.Latency
