import ClusterSweep.Binary64.Round
import ClusterSweep.Binary64.Shortest

/-!
# Fixed places

Report and table columns show a number with a fixed count of decimal places, right-aligned in a
column of fixed width.  The digits come from the exact binary value, so `2.675` (which is
`2.67499999…` in binary) shows as `2.67`; a value exactly halfway between two neighbours goes to
the even one, so `0.125` shows as `0.12`.  The sign is the sign bit, so `-0.0` shows as `-0.0000`.
The three non-finite values show as `inf`, `-inf` and `NaN` in the same column.
-/

namespace ClusterSweep.Binary64

/-- The digits of `x` with `places` decimals, the magnitude rounded to nearest with ties to
even. -/
def fixedText (places : Nat) (x : Binary64) : String :=
  match x.classify with
  | .finite neg mant e =>
    let scaled : Nat :=
      if 0 ≤ e then mant * Nat.pow 2 e.toNat * Nat.pow 10 places
      else
        let num := mant * Nat.pow 10 places
        let den := Nat.pow 2 (-e).toNat
        roundHalfEven (num / den) (num % den) den
    let ds := (digitText scaled).toList
    let ds := List.replicate (places + 1 - ds.length) '0' ++ ds
    let cut := ds.length - places
    let body :=
      if places = 0 then String.ofList ds
      else String.ofList (ds.take cut) ++ "." ++ String.ofList (ds.drop cut)
    (if neg then "-" else "") ++ body
  | _ => specialText x

/-- A text right-aligned in a column of `width` characters; a longer text is kept whole. -/
def padLeft (width : Nat) (s : String) : String :=
  String.ofList (List.replicate (width - s.length) ' ') ++ s

/-- `x` with `places` decimals, right-aligned in a column of `width` characters. -/
def column (width places : Nat) (x : Binary64) : String :=
  padLeft width (fixedText places x)

end ClusterSweep.Binary64
