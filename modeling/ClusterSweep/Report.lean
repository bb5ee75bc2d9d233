import ClusterSweep.Execution
import ClusterSweep.Reduction.Run

/-!
# Reports

What the program prints after a sweep and after a reduction, with terminal styles:

    ## SWEEP
    DONE: get clients=1 (servers4_replicas3_span1_value3_keys1)
    SKIPPED: get clients=1 (servers2_…): 2 servers cannot hold 3 replicas (need at least 4)
    FAILED: get clients=2 (…): failed to spawn cluster runner: …
    1 completed, 1 skipped, 1 failed

    ## THROUGHPUT get (results/servers4_replicas3_span1_value3_keys1)
         1 clients:         5.00 operations/s
    ## INCOMPLETE
      set clients=1 (results/…): i/o error on …

The counts are bold and the failed count red when it is not zero; the outcome labels are bold
green, yellow and red; the throughput is bold with two decimals in a column of twelve.  A
reduction without failures prints no `INCOMPLETE` section.

Printing acts on the text written so far and may stop the program: the message of a skipped
point names `replicas + 1`, which overflows for the largest replica count, after the start of
that line has been written.
-/

namespace ClusterSweep.Report

open ClusterSweep.Reduction

/-- `text` in the terminal style with the given attribute codes, reset after it. -/
def paint (codes text : String) : String := "\x1b[" ++ codes ++ "m" ++ text ++ "\x1b[0m"

/-- Bold text. -/
def bold (text : String) : String := paint "1" text

/-- Bold green text. -/
def boldGreen (text : String) : String := paint "1;32" text

/-- Bold yellow text. -/
def boldYellow (text : String) : String := paint "1;33" text

/-- Bold red text. -/
def boldRed (text : String) : String := paint "1;31" text

/-- Bold blue text. -/
def boldBlue (text : String) : String := paint "1;34" text

/-- Printing on the text written so far, which may stop the program. -/
abbrev Printing := Stopping Abort String Unit

/-- Writes `text`. -/
def emit (text : String) : Printing := modify (· ++ text)

/-- Prints the outcome of one point. -/
def printOutcome (p : Point) (o : Outcome) : Printing :=
  match o with
  | .completed => emit (boldGreen "DONE:" ++ " " ++ p.display ++ "\n")
  | .skipped v => do
    emit (boldYellow "SKIPPED:" ++ " " ++ p.display ++ ": ")
    let message ← MonadExcept.ofExcept (v.message.mapError (Overflow.abortAt Site.violation))
    emit (message ++ "\n")
  | .failed e => emit (boldRed "FAILED:" ++ " " ++ p.display ++ ": " ++ e.message ++ "\n")

/-- Prints the report of a sweep. -/
def printSweep (r : SweepReport) : Printing := do
  emit (bold "## SWEEP" ++ "\n")
  r.outcomes.forM fun (p, o) => printOutcome p o
  emit (bold (toString r.completed) ++ " completed")
  emit (", " ++ bold (toString r.skipped) ++ " skipped")
  if 0 < r.failed then emit (", " ++ boldRed (toString r.failed ++ " failed") ++ "\n")
  else emit (", " ++ toString r.failed ++ " failed\n")

/-- The line of one point of a throughput table. -/
def rowText (row : Throughput.Row) : String :=
  "  " ++ Binary64.padLeft 4 (toString row.clients) ++ " clients: " ++
    bold (Binary64.column 12 2 row.opsPerSec) ++ " operations/s\n"

/-- The line of a run or table that could not be reduced. -/
def failureText (f : Failure) : String :=
  let run := match f.clients with
    | some c => f.test ++ " clients=" ++ toString c
    | none => f.test
  "  " ++ run ++ " (" ++ f.dir ++ "): " ++ f.error.message ++ "\n"

/-- Prints the report of a reduction. -/
def printReduce (r : Report) : Printing := do
  r.tables.forM fun t => do
    emit (bold "## THROUGHPUT" ++ " " ++ boldBlue t.test ++ " (" ++ t.dir ++ ")\n")
    t.table.points.forM fun row => emit (rowText row)
  if !r.failures.isEmpty then
    emit (boldRed "## INCOMPLETE" ++ "\n")
    r.failures.forM fun f => emit (failureText f)

end ClusterSweep.Report
