import ClusterSweep.Binary64.Fixed
import ClusterSweep.Binary64.Read
import ClusterSweep.Reduction.Error

/-!
# Percentile tables

The latency distribution of a run as a table of points `(value, fraction)`: the fraction of
samples at or below the value.  For `n` samples sorted by the IEEE total order the table holds

* `(0, 0)`,
* the least sample at fraction `1/n`,
* for `i = 1 … 99` the sample at position `⌊n·i/100⌋` at fraction `i/100`,
* the samples at positions `⌊n·999/1000⌋` and `⌊n·9999/10000⌋` at `0.999` and `0.9999`,
* the greatest sample at fraction `1`,

positions capped at the last sample, every fraction a correctly rounded binary64 quotient.  The
points are then sorted by fraction, keeping the order of equal fractions, and a point whose
fraction equals that of the point kept before it is dropped, so a table has 103 or 104 points.

Its text has one line per point: the value with four places in eight columns, four spaces, the
fraction with six places in ten columns.
-/

namespace ClusterSweep.Latency

/-- One point of a latency distribution. -/
structure PercentilePoint where
  /-- The latency. -/
  value : Binary64
  /-- The fraction of samples at or below it. -/
  fraction : Binary64
  deriving DecidableEq, Repr

/-- The points of a latency distribution, by increasing fraction. -/
structure PercentileTable where
  /-- The points. -/
  points : List PercentilePoint
  deriving DecidableEq, Repr

namespace PercentileTable

/-- The points before sorting and dropping repeated fractions, for samples sorted by the total
order.  The positions `n · i / 100`, `n · 999 / 1000` and `n · 9999 / 10000` are exact here; the
program forms the products in a 64-bit word, which they leave only from about `1.8 · 10^15`
samples on, more than fit in memory at eight bytes each, so no run reaches that case. -/
def rawPoints (sorted : Array Binary64) : List PercentilePoint :=
  let n := sorted.size
  let nth := fun (i : Nat) => sorted.getD (min i (n - 1)) Binary64.zero
  let frac := fun (i : Nat) => Binary64.div (Binary64.ofNat i) (Binary64.ofNat 100)
  [⟨Binary64.zero, Binary64.zero⟩, ⟨nth 0, Binary64.div Binary64.one (Binary64.ofNat n)⟩] ++
    ((List.range 99).map fun k => ⟨nth (n * (k + 1) / 100), frac (k + 1)⟩) ++
    [⟨nth (n * 999 / 1000), Binary64.ofDecimal 999 (-3)⟩,
     ⟨nth (n * 9999 / 10000), Binary64.ofDecimal 9999 (-4)⟩,
     ⟨nth (n - 1), Binary64.one⟩]

/-- Dropping a prefix never makes a list longer. -/
theorem length_dropWhile_le {α : Type} (p : α → Bool) :
    ∀ l : List α, (l.dropWhile p).length ≤ l.length
  | [] => by simp
  | a :: l => by
    have := length_dropWhile_le p l
    simp only [List.dropWhile_cons]
    split <;> simp
    omega

/-- Drops every point whose fraction equals that of the point kept before it. -/
def dropRepeats : List PercentilePoint → List PercentilePoint
  | [] => []
  | p :: rest => p :: dropRepeats (rest.dropWhile fun q => Binary64.eq q.fraction p.fraction)
termination_by l => l.length
decreasing_by
  simp only [List.length_cons]
  have := length_dropWhile_le (fun q => Binary64.eq q.fraction p.fraction) rest
  omega

/-- The percentile table of a non-empty list of samples. -/
def ofSamples (samples : List Binary64) : Except ReduceError PercentileTable :=
  if samples.isEmpty then .error .noSamples
  else
    let sorted := (samples.mergeSort Binary64.totalLe).toArray
    let byFraction := (rawPoints sorted).mergeSort fun a b => Binary64.totalLe a.fraction b.fraction
    .ok ⟨dropRepeats byFraction⟩

/-- One line of the table's text. -/
def lineText (p : PercentilePoint) : String :=
  Binary64.column 8 4 p.value ++ "    " ++ Binary64.column 10 6 p.fraction ++ "\n"

/-- The table as text, one line per point. -/
def text (t : PercentileTable) : String := String.join (t.points.map lineText)

end PercentileTable

end ClusterSweep.Latency
