import ClusterSweep.Binary64.Basic

/-!
# The shortest decimal of a binary64 number

A positive finite number `x = mant · 2^e` reads back from every decimal inside its rounding
interval: the points halfway to its two neighbours, included exactly when `mant` is even (a tie
reads back to the even significand).  The gap below is half the gap above when `x` is the least
number of its binade.  `Binary64.shortest` walks the decimal grids of 1, 2, … 17 significant
digits; on each grid the only candidates are the two grid points around `x`, since any other
point is farther away than one of them.  The first grid with a candidate inside the interval
gives the digits, the nearer of two candidates wins, and an exact tie takes the even one.  At 17
digits the grid step is below the interval's width, so the walk always ends.

Positions are exact: every quantity is an integer times a power of two and a power of ten
(`Scaled`), compared by moving both sides to their common denominator.

Two kinds of text are written from the same digits: `layoutText`, positional inside a range of
exponents given by a `Layout` and with an exponent outside, always showing that the number is
not an integer; and `plainText`, always positional and without a point for a whole number.
-/

namespace ClusterSweep.Binary64

/-- The exact number `coef · 2^pow2 · 10^pow10`. -/
structure Scaled where
  /-- The integer factor. -/
  coef : Nat
  /-- The power of two. -/
  pow2 : Int
  /-- The power of ten. -/
  pow10 : Int

namespace Scaled

/-- The numerator and denominator of a scaled number, with non-negative powers. -/
def fraction (a : Scaled) : Nat × Nat :=
  (a.coef * Nat.pow 2 a.pow2.toNat * Nat.pow 10 a.pow10.toNat, Nat.pow 2 (-a.pow2).toNat * Nat.pow 10 (-a.pow10).toNat)

/-- Compares two scaled numbers exactly. -/
def cmp (a b : Scaled) : Ordering :=
  let (an, ad) := a.fraction
  let (bn, bd) := b.fraction
  compare (an * bd) (bn * ad)

/-- The integer part of a scaled number. -/
def floor (a : Scaled) : Nat := a.fraction.1 / a.fraction.2

end Scaled

/-- The greatest `k` with `10^k ≤ x`, for `x = coef · 2^pow2` positive: an estimate from the
binary exponent, corrected by exact comparisons. -/
def decimalExponent (coef : Nat) (pow2 : Int) : Int :=
  let lb : Int := (coef.log2 : Int) + pow2
  let guess : Int := lb * 30103 / 100000
  let x : Scaled := ⟨coef, pow2, 0⟩
  let down := fun (k : Int) => if (Scaled.cmp ⟨1, 0, k⟩ x) == .gt then k - 1 else k
  let up := fun (k : Int) => if (Scaled.cmp ⟨1, 0, k + 1⟩ x) != .gt then k + 1 else k
  up (up (down (down guess)))

/-- Whether the decimal `c` lies in the rounding interval `(low, high)` of a number, the ends
belonging to it when `closed` holds. -/
def inInterval (closed : Bool) (low high c : Scaled) : Bool :=
  let aboveLow := match Scaled.cmp low c with
    | .lt => true
    | .eq => closed
    | .gt => false
  let belowHigh := match Scaled.cmp c high with
    | .lt => true
    | .eq => closed
    | .gt => false
  aboveLow && belowHigh

/-- Drops the trailing zeros of a digit string `d · 10^s`. -/
def trimZeros (d : Nat) (s : Int) (fuel : Nat) : Nat × Int :=
  match fuel with
  | 0 => (d, s)
  | fuel + 1 => if d ≠ 0 && d % 10 == 0 then trimZeros (d / 10) (s + 1) fuel else (d, s)

/-- The digits `d` and exponent `s` of the decimal `d · 10^s` that reads back as `mant · 2^e`
(with `mant > 0`) and has the fewest significant digits, the nearest of those; `d` has no
trailing zero. -/
def shortest (mant : Nat) (e : Int) : Nat × Int :=
  let lowCoef := if mant = Nat.pow 2 52 && e > -1074 then 4 * mant - 1 else 4 * mant - 2
  let low : Scaled := ⟨lowCoef, e - 2, 0⟩
  let high : Scaled := ⟨4 * mant + 2, e - 2, 0⟩
  let closed := mant % 2 == 0
  let k := decimalExponent mant e
  let rec search (n : Nat) (fuel : Nat) : Nat × Int :=
    let s : Int := k - n + 1
    let dLo := Scaled.floor ⟨4 * mant, e - 2, -s⟩
    let inLo := inInterval closed low high ⟨dLo, 0, s⟩
    let inHi := inInterval closed low high ⟨dLo + 1, 0, s⟩
    let pick :=
      if inLo && inHi then
        match Scaled.cmp ⟨2 * 4 * mant, e - 2, 0⟩ ⟨2 * dLo + 1, 0, s⟩ with
        | .lt => some dLo
        | .gt => some (dLo + 1)
        | .eq => some (if dLo % 2 == 0 then dLo else dLo + 1)
      else if inLo then some dLo
      else if inHi then some (dLo + 1)
      else none
    match pick, fuel with
    | some d, _ => trimZeros d s 20
    | none, 0 => trimZeros dLo s 20
    | none, fuel + 1 => search (n + 1) fuel
  search 1 17

/-- The decimal digits of a natural number. -/
def digitText (n : Nat) : String := toString n

/-- A digit string `d · 10^s` written out without an exponent. -/
def positional (d : Nat) (s : Int) : String :=
  let ds := digitText d
  if 0 ≤ s then ds ++ String.ofList (List.replicate s.toNat '0')
  else
    let cut : Int := ds.length + s
    if 0 < cut then
      String.ofList (ds.toList.take cut.toNat) ++ "." ++ String.ofList (ds.toList.drop cut.toNat)
    else "0." ++ String.ofList (List.replicate (-cut).toNat '0') ++ ds

/-- A finite number as its sign and shortest digits: `(neg, d, s)` with value `± d · 10^s`;
zero is `d = 0`. -/
def decimal? (x : Binary64) : Option (Bool × Nat × Int) :=
  match x.classify with
  | .finite neg mant e => if mant = 0 then some (neg, 0, 0) else
      let (d, s) := shortest mant e
      some (neg, d, s)
  | _ => none

/-- The texts of the three non-finite values. -/
def specialText (x : Binary64) : String :=
  if x.isNaN then "NaN" else if x.sign then "-inf" else "inf"

/-- The shortest text that reads back as `x`, positional and without a point for a whole number:
`2`, `0.1`, `-0`, `100000000000000000000`. -/
def plainText (x : Binary64) : String :=
  match x.decimal? with
  | some (neg, d, s) => (if neg then "-" else "") ++ positional d s
  | none => specialText x

/-- Where a shortest text leaves positional notation and how it writes the exponent. -/
structure Layout where
  /-- The least decimal exponent of the leading digit that is written positionally. -/
  lowest : Int
  /-- The greatest decimal exponent of the leading digit that is written positionally. -/
  highest : Int
  /-- Whether a positive exponent shows a plus sign. -/
  plusSign : Bool
  /-- The least number of exponent digits, padded with zeros. -/
  expWidth : Nat

/-- Texts with a signed exponent of at least two digits: positional from `1e-4` below `1e16`,
exponent `e+XX` or `e-XX` outside. -/
def Layout.signed : Layout := ⟨-4, 15, true, 2⟩

/-- Texts with a signed exponent of as few digits as needed: positional from `1e-5` below
`1e16`, exponent `e+X` or `e-X` outside. -/
def Layout.compact : Layout := ⟨-5, 15, true, 1⟩

/-- The shortest text that reads back as `x` and shows that it is not an integer: positional with
at least one fractional digit inside the layout's range and `d.ddd` with an exponent outside.
With `Layout.signed`: `1.0`, `0.0001`, `1e-05`, `1.5e+20`, `-0.0`. -/
def layoutText (l : Layout) (x : Binary64) : String :=
  match x.decimal? with
  | some (neg, d, s) =>
    let signText := if neg then "-" else ""
    if d = 0 then signText ++ "0.0" else
    let ds := digitText d
    let p : Int := ds.length - 1 + s
    if l.lowest ≤ p && p ≤ l.highest then
      signText ++ (if 0 ≤ s then positional d s ++ ".0" else positional d s)
    else
      let mantText := match ds.toList with
        | c :: rest => if rest.isEmpty then String.singleton c else
            String.singleton c ++ "." ++ String.ofList rest
        | [] => "0"
      let expDigits := digitText p.natAbs
      let expText := (if p < 0 then "-" else if l.plusSign then "+" else "") ++
        String.ofList (List.replicate (l.expWidth - expDigits.length) '0') ++ expDigits
      signText ++ mantText ++ "e" ++ expText
  | none => specialText x

/-- The shortest text of `x` with a signed exponent, which reads back as `x` in any JSON reader. -/
def reprText (x : Binary64) : String := layoutText Layout.signed x

end ClusterSweep.Binary64
