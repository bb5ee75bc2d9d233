import ClusterSweep.Binary64.Basic

/-!
# Rounding to binary64

`Binary64.ofRatio num den` is the binary64 number nearest to the non-negative ratio `num / den`:
a tie goes to the even significand, a ratio at or past the midpoint above the largest finite
number gives `+∞`, and a ratio at or below half the least subnormal gives `+0`.  Counts,
quotients and decimal texts all reach binary64 through it, so each of them is correctly rounded.

The significand is found in exact arithmetic.  With `a = log2 num` and `b = log2 den` the ratio
lies in `(2^(a-b-1), 2^(a-b+1))`, so scaling by `2^(b-a+52)` puts its integer part in
`[2^51, 2^53)`; one more doubling when it falls short of `2^52` makes it a 53-bit significand.
Below the normal range the exponent stops at `-1074` and the significand shrinks instead.  The
pattern is then `(e + 1074) · 2^52 + q` for exponent `e` and significand `q` (`encode`): a carry
of the significand into `2^53` moves into the exponent field by itself.
-/

namespace ClusterSweep.Binary64

/-- The quotient, remainder and divisor of `num / (den · 2^e)`, scaling whichever side keeps the
division exact. -/
def scaledDivMod (num den : Nat) (e : Int) : Nat × Nat × Nat :=
  if 0 ≤ e then
    let d := den * Nat.pow 2 e.toNat
    (num / d, num % d, d)
  else
    let n := num * Nat.pow 2 (-e).toNat
    (n / den, n % den, den)

/-- Rounds `q + r / d` to an integer, a tie going to the even neighbour. -/
def roundHalfEven (q r d : Nat) : Nat :=
  if d < 2 * r then q + 1
  else if 2 * r = d then (if q % 2 = 1 then q + 1 else q)
  else q

/-- The number `q · 2^e`, for `e ≥ -1074` and `q ≤ 2^53` with `q < 2^52` only at `e = -1074`;
past the largest finite number it is `+∞`. -/
def encode (q : Nat) (e : Int) : Binary64 :=
  let w := (e + 1074).toNat * Nat.pow 2 52 + q
  if w < 0x7FF0000000000000 then ofWord w else inf

/-- The binary64 number nearest to `num / den`, a tie going to the even significand. -/
def ofRatio (num den : Nat) : Binary64 :=
  if num = 0 then zero
  else if den = 0 then inf
  else
    let e₀ : Int := (num.log2 : Int) - den.log2 - 52
    let e₁ := if (scaledDivMod num den e₀).1 < Nat.pow 2 52 then e₀ - 1 else e₀
    let e := if e₁ < -1074 then -1074 else e₁
    match scaledDivMod num den e with
    | (q, r, d) => encode (roundHalfEven q r d) e

/-- The binary64 number nearest to `mant · 2^k / den`. -/
def ofScaled (mant : Nat) (k : Int) (den : Nat) : Binary64 :=
  if 0 ≤ k then ofRatio (mant * Nat.pow 2 k.toNat) den else ofRatio mant (den * Nat.pow 2 (-k).toNat)

/-- The binary64 number nearest to a count. -/
def ofNat (n : Nat) : Binary64 := ofRatio n 1

/-- IEEE division, rounding to nearest with ties to even. -/
def div (x y : Binary64) : Binary64 :=
  let s := x.sign != y.sign
  match x.classify, y.classify with
  | .nan, _ => nan
  | _, .nan => nan
  | .infinite _, .infinite _ => nan
  | .infinite _, .finite .. => withSign s inf
  | .finite .., .infinite _ => withSign s zero
  | .finite _ mx ex, .finite _ my ey =>
    if my = 0 then (if mx = 0 then nan else withSign s inf)
    else withSign s (ofScaled mx (ex - ey) my)

/-- Rounding never produces a NaN pattern's exponent with a fraction: a zero ratio is `+0`. -/
theorem ofRatio_zero_left (den : Nat) : ofRatio 0 den = zero := by
  simp [ofRatio]

end ClusterSweep.Binary64
