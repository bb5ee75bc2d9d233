import ClusterSweep.Checked

/-!
# Stopping the program

Some conditions stop the whole program at once rather than being reported as an error of an
operation: a count that overflows its machine word, a duration too long to hold, a result file
that cannot be written by the simulated cluster.  An `Abort` records the message and the place
in the program that reports it, which the command line prints.

A step that can stop acts on a state — the disk, the text printed so far — and a stop keeps
what was done before it (`Stopping`): the directories created for the runs before an
overflowing one are still there when the program stops.
-/

namespace ClusterSweep

/-- The program stops with `message`, reported at `site`. -/
structure Abort where
  /-- What went wrong. -/
  message : String
  /-- Where in the program it is reported. -/
  site : String
  deriving DecidableEq, Repr

/-- A computation on a state of type `σ` that can stop with an error of type `ε`.  A stop keeps
the state reached so far, as what a program did before it stopped stays done. -/
abbrev Stopping (ε σ α : Type) : Type := ExceptT ε (StateM σ) α

/-- The result of a stoppable computation started in state `s`, with the state it ends in. -/
def Stopping.runFrom {ε σ α : Type} (m : Stopping ε σ α) (s : σ) : Except ε α × σ :=
  (ExceptT.run m).run s

/-- A stoppable computation on the part `view s` of a larger state, written back with
`update`. -/
def Stopping.focus {ε σ τ α : Type} (view : σ → τ) (update : σ → τ → σ) (m : Stopping ε τ α) :
    Stopping ε σ α :=
  ExceptT.mk fun s => let (r, t) := m.runFrom (view s); pure (r, update s t)

/-- An overflow, reported at `site`. -/
def Overflow.abortAt (site : String) (o : Overflow) : Abort := ⟨o.message, site⟩

/-! Places in the program that report a stop. -/
namespace Site

/-- The total operations of a per-client target. -/
def quota : String := "perfsweep-core/src/quota.rs:46:34"

/-- The least server count named by a violation. -/
def violation : String := "perfsweep-core/src/error.rs:33:85"

/-- Whole seconds of a duration in a command line. -/
def wholeSecs : String := "perfsweep-core/src/runner.rs:193:5"

/-- The number of shapes of a space. -/
def shapeCount : String := "perfsweep-core/src/sweep.rs:86:9"

/-- The number of points of a space. -/
def pointCount : String := "perfsweep-core/src/sweep.rs:77:9"

/-- The sum of operations of a run. -/
def operationSum : String :=
  "/rustc/library/core/src/iter/traits/accum.rs:149:1"

/-- A duration made of seconds and nanoseconds that carry past the largest number of
seconds. -/
def durationNew : String := "/rustc/library/core/src/time.rs:219:31"

/-- The sum of a run's timeout and the runner's grace period. -/
def durationSum : String := "/rustc/library/core/src/time.rs:1174:31"

end Site

end ClusterSweep
