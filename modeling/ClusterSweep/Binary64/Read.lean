import ClusterSweep.Binary64.Round

/-!
# Reading decimal text as binary64

The number grammar of sample and summary files:

    number   ::= sign? (special | decimal)
    special  ::= "inf" | "infinity" | "nan"            (letters in any case)
    decimal  ::= digits? ("." digits?)? (("e" | "E") sign? digits)?
                 with at least one digit before or after the point
    sign     ::= "+" | "-"

Digits are the ASCII digits; nothing else may stand in the text, not even a blank.  A decimal is
the exact value `mantissa · 10^exponent` rounded to the nearest binary64 number (`ofDecimal`),
so `1e400` is `+∞`, `1e-400` is `+0` and `-0` keeps its sign.  A sign in front of `nan` sets the
sign bit of the NaN.
-/

namespace ClusterSweep.Binary64

/-- The number of decimal digits of `n`; zero has none. -/
def decimalWidth (n : Nat) : Nat :=
  if h : n = 0 then 0 else decimalWidth (n / 10) + 1
termination_by n
decreasing_by omega

/-- The binary64 number nearest to `mant · 10^exp`.  A value of `10^310` or more is past every
finite number and one below `10^-324` is below half the least subnormal, so those two ends are
decided without building the power. -/
def ofDecimal (mant : Nat) (exp : Int) : Binary64 :=
  if mant = 0 then zero
  else
    let k : Int := decimalWidth mant
    if 310 < k + exp then inf
    else if k + exp < -324 then zero
    else if 0 ≤ exp then ofRatio (mant * Nat.pow 10 exp.toNat) 1
    else ofRatio mant (Nat.pow 10 (-exp).toNat)

/-- The value of a list of ASCII digits. -/
def digitsValue (ds : List Char) : Nat :=
  ds.foldl (fun n c => 10 * n + (c.toNat - '0'.toNat)) 0

/-- An exponent after the `e`: an optional sign and at least one digit, up to the end. -/
def readExponent (cs : List Char) : Option Int :=
  let (neg, rest) := match cs with
    | '+' :: r => (false, r)
    | '-' :: r => (true, r)
    | r => (false, r)
  if !rest.isEmpty && rest.all Char.isDigit then
    let v : Int := digitsValue rest
    some (if neg then -v else v)
  else none

/-- A decimal without its sign, or `none` when the text is not one. -/
def readDecimal (cs : List Char) : Option Binary64 :=
  let intPart := cs.takeWhile Char.isDigit
  let afterInt := cs.dropWhile Char.isDigit
  let (fracPart, afterFrac) := match afterInt with
    | '.' :: r => (r.takeWhile Char.isDigit, r.dropWhile Char.isDigit)
    | r => ([], r)
  if intPart.isEmpty && fracPart.isEmpty then none
  else
    let exp? : Option Int := match afterFrac with
      | [] => some 0
      | c :: r => if c = 'e' || c = 'E' then readExponent r else none
    exp?.map fun exp => ofDecimal (digitsValue (intPart ++ fracPart)) (exp - fracPart.length)

/-- A number without its sign: a special word or a decimal. -/
def readMagnitude (cs : List Char) : Option Binary64 :=
  let lower := cs.map Char.toLower
  if lower = "inf".toList || lower = "infinity".toList then some inf
  else if lower = "nan".toList then some nan
  else readDecimal cs

/-- Reads a whole text as a binary64 number, or `none` when it does not follow the grammar. -/
def read? (s : String) : Option Binary64 :=
  match s.toList with
  | '+' :: r => readMagnitude r
  | '-' :: r => (readMagnitude r).map (withSign true)
  | r => readMagnitude r

end ClusterSweep.Binary64
