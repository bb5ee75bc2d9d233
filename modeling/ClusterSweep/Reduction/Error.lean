import ClusterSweep.Disk

/-!
# Reduction errors

Why the results of a run cannot be reduced: a file cannot be read or written, a file holds a
token that is not a number, an execution summary lacks a field, the run left no latency
samples, or no client ran for a positive time.  Every error that concerns a file names it as it
was given.
-/

namespace ClusterSweep

/-- Why the results of a run cannot be reduced. -/
inductive ReduceError where
  /-- Reading or writing the file at `path` failed. -/
  | io (path : String) (cause : IoError)
  /-- Line `line` of the file at `path` holds `token`, which is not a number. -/
  | parse (path : String) (line : Nat) (token : String)
  /-- The execution summary at `path` has no line for `field`. -/
  | missingField (path : String) (field : String)
  /-- The latency files hold no sample. -/
  | noSamples
  /-- No execution summary reports a positive run time. -/
  | zeroDuration
  deriving DecidableEq, Repr

/-- The text that reports a reduction error. -/
def ReduceError.message : ReduceError → String
  | .io path cause => "i/o error on `" ++ path ++ "`: " ++ cause.message
  | .parse path line token =>
    "invalid number `" ++ token ++ "` in `" ++ path ++ "` line " ++ toString line
  | .missingField path field =>
    "execution summary `" ++ path ++ "` has no `" ++ field ++ "` field"
  | .noSamples => "no latency samples found"
  | .zeroDuration => "cannot compute throughput without a positive run time"

end ClusterSweep
