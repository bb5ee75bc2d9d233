/-!
# Reading integers

The integer grammar of settings and command-line options:

    integer ::= sign? digit+          sign ::= "+" | "-"  (a minus only for signed integers)

with ASCII digits, nothing else, not even a blank.  The text is read left to right; the first
character that is not a digit makes it invalid, unless the value has already left the range of
the target type, which is reported first.  So `99999999999999999999x` is too large for 64 bits
while `1x` has an invalid digit.
-/

namespace ClusterSweep.Text

/-- Why a text is not an integer of the target type. -/
inductive IntError where
  /-- The text is empty. -/
  | empty
  /-- A character is not a digit, or the text is a lone sign. -/
  | invalidDigit
  /-- The value is above the range of the target type. -/
  | tooLarge
  /-- The value is below the range of the target type. -/
  | tooSmall
  deriving DecidableEq, Repr

/-- The text that reports why a text is not an integer. -/
def IntError.message : IntError → String
  | .empty => "cannot parse integer from empty string"
  | .invalidDigit => "invalid digit found in string"
  | .tooLarge => "number too large to fit in target type"
  | .tooSmall => "number too small to fit in target type"

/-- Reads digits after `acc`, failing with `outOfRange` once the magnitude passes `limit`. -/
def readDigits (limit : Nat) (outOfRange : IntError) : Nat → List Char → Except IntError Nat
  | acc, [] => .ok acc
  | acc, c :: cs =>
    if c.isDigit then
      let next := 10 * acc + (c.toNat - '0'.toNat)
      if limit < next then .error outOfRange else readDigits limit outOfRange next cs
    else .error .invalidDigit

/-- An unsigned integer below `2 ^ bits`; a plus sign may stand in front. -/
def readUnsigned (bits : Nat) (s : String) : Except IntError Nat :=
  match s.toList with
  | [] => .error .empty
  | ['+'] | ['-'] => .error .invalidDigit
  | '+' :: cs => readDigits (Nat.pow 2 bits - 1) .tooLarge 0 cs
  | cs => readDigits (Nat.pow 2 bits - 1) .tooLarge 0 cs

/-- A signed integer of `bits` bits in two's complement; a sign may stand in front. -/
def readSigned (bits : Nat) (s : String) : Except IntError Int :=
  match s.toList with
  | [] => .error .empty
  | ['+'] | ['-'] => .error .invalidDigit
  | '-' :: cs => (fun n => -(n : Int)) <$> readDigits (Nat.pow 2 (bits - 1)) .tooSmall 0 cs
  | '+' :: cs => (fun n => (n : Int)) <$> readDigits (Nat.pow 2 (bits - 1) - 1) .tooLarge 0 cs
  | cs => (fun n => (n : Int)) <$> readDigits (Nat.pow 2 (bits - 1) - 1) .tooLarge 0 cs

end ClusterSweep.Text
