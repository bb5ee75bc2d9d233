/-!
# Binary64 numbers

An IEEE 754 binary64 number is held as its 64-bit interchange pattern: one sign bit, eleven bits
of biased exponent and fifty-two bits of fraction.  Every operation of the library reads the
pattern through `Binary64.classify`, which names the three kinds of value:

* a NaN (any exponent field of all ones with a non-zero fraction),
* an infinity with its sign,
* a finite value `± mant · 2 ^ exp`, where a normal number has `mant = 2^52 + fraction` and
  `exp = field - 1075`, and a subnormal number or a zero has `mant = fraction`, `exp = -1074`.

The order of latency samples is the IEEE total order: negative NaNs, `-∞`, the negative numbers,
`-0`, `+0`, the positive numbers, `+∞`, positive NaNs.  `Binary64.orderKey` maps a pattern to a
natural number whose order is exactly that order, and different patterns have different keys
(`orderKey_injective`), so sorting samples is sorting by a key.  The arithmetic comparisons `lt`
and `le` are the ones of IEEE: a NaN is comparable to nothing and the two zeros are equal.
-/

namespace ClusterSweep

/-- An IEEE 754 binary64 number, held as its 64-bit interchange pattern. -/
structure Binary64 where
  /-- The pattern: sign bit, eleven bits of biased exponent, fifty-two bits of fraction. -/
  bits : UInt64
  deriving DecidableEq, Inhabited, Repr

namespace Binary64

/-! ## Fields of the pattern -/

/-- The pattern as a natural number below `2^64`. -/
def word (x : Binary64) : Nat := x.bits.toNat

/-- Whether the sign bit is set. -/
def sign (x : Binary64) : Bool := decide (Nat.pow 2 63 ≤ x.word)

/-- The eleven-bit biased exponent field. -/
def expField (x : Binary64) : Nat := x.word / Nat.pow 2 52 % Nat.pow 2 11

/-- The fifty-two-bit fraction field. -/
def fraction (x : Binary64) : Nat := x.word % Nat.pow 2 52

/-- The number with the given pattern, read as a natural number below `2^64`. -/
def ofWord (n : Nat) : Binary64 := ⟨n.toUInt64⟩

/-! ## Named values -/

/-- Positive zero. -/
def zero : Binary64 := ofWord 0

/-- Negative zero. -/
def negZero : Binary64 := ofWord (Nat.pow 2 63)

/-- Positive one. -/
def one : Binary64 := ofWord 0x3FF0000000000000

/-- Positive infinity. -/
def inf : Binary64 := ofWord 0x7FF0000000000000

/-- Negative infinity. -/
def negInf : Binary64 := ofWord 0xFFF0000000000000

/-- The quiet NaN with a clear sign bit, the NaN that reading `nan` gives. -/
def nan : Binary64 := ofWord 0x7FF8000000000000

/-! ## Classification -/

/-- The three kinds of binary64 value. -/
inductive Kind where
  /-- Not a number. -/
  | nan
  /-- An infinity; `neg` is its sign. -/
  | infinite (neg : Bool)
  /-- The finite value `± mant · 2 ^ exp`; `neg` is the sign, also of a zero. -/
  | finite (neg : Bool) (mant : Nat) (exp : Int)
  deriving DecidableEq, Repr

/-- The kind and, for a finite number, the exact value of a pattern. -/
def classify (x : Binary64) : Kind :=
  if x.expField = 2047 then
    if x.fraction = 0 then .infinite x.sign else .nan
  else if x.expField = 0 then
    .finite x.sign x.fraction (-1074)
  else
    .finite x.sign (x.fraction + Nat.pow 2 52) ((x.expField : Int) - 1075)

/-- Whether `x` is a NaN. -/
def isNaN (x : Binary64) : Bool := x.expField == 2047 && x.fraction != 0

/-- Whether `x` is an infinity. -/
def isInf (x : Binary64) : Bool := x.expField == 2047 && x.fraction == 0

/-- Whether `x` is neither an infinity nor a NaN. -/
def isFinite (x : Binary64) : Bool := x.expField != 2047

/-- Whether `x` is one of the two zeros. -/
def isZero (x : Binary64) : Bool := x.word % Nat.pow 2 63 == 0

/-- The same magnitude with the sign bit cleared. -/
def abs (x : Binary64) : Binary64 := ofWord (x.word % Nat.pow 2 63)

/-- The same magnitude with the sign bit flipped. -/
def neg (x : Binary64) : Binary64 :=
  ofWord (if x.sign then x.word - Nat.pow 2 63 else x.word + Nat.pow 2 63)

/-- The number `x` with its sign bit set to `s`. -/
def withSign (s : Bool) (x : Binary64) : Binary64 :=
  ofWord (if s then x.word % Nat.pow 2 63 + Nat.pow 2 63 else x.word % Nat.pow 2 63)

/-! ## Order -/

/-- The key of the IEEE total order: a negative pattern counts down from `2^63 - 1`, a positive
one counts up from `2^63`. -/
def orderKey (x : Binary64) : Nat :=
  if x.sign then Nat.pow 2 64 - 1 - x.word else x.word + Nat.pow 2 63

/-- The IEEE total order, as a Boolean test. -/
def totalLe (x y : Binary64) : Bool := x.orderKey ≤ y.orderKey

/-- The arithmetic `<` of IEEE: false when either side is a NaN, and the zeros are equal. -/
def lt (x y : Binary64) : Bool :=
  !x.isNaN && !y.isNaN && !(x.isZero && y.isZero) && decide (x.orderKey < y.orderKey)

/-- The arithmetic `≤` of IEEE: false when either side is a NaN, and the zeros are equal. -/
def le (x y : Binary64) : Bool :=
  !x.isNaN && !y.isNaN && ((x.isZero && y.isZero) || decide (x.orderKey ≤ y.orderKey))

/-- The arithmetic `==` of IEEE: false when either side is a NaN, and the zeros are equal. -/
def eq (x y : Binary64) : Bool :=
  !x.isNaN && !y.isNaN && ((x.isZero && y.isZero) || x.bits == y.bits)

/-- The larger of two numbers, where a NaN gives way to the other operand. -/
def max (x y : Binary64) : Binary64 :=
  if x.isNaN then y else if y.isNaN then x else if lt x y then y else x

theorem word_lt (x : Binary64) : x.word < Nat.pow 2 64 := x.bits.toNat_lt

theorem word_ofWord {n : Nat} (h : n < Nat.pow 2 64) : (ofWord n).word = n := by
  have h' : n < 18446744073709551616 := h
  simp only [word, ofWord, Nat.toUInt64, UInt64.toNat_ofNat', Nat.mod_eq_of_lt h']

theorem ofWord_word (x : Binary64) : ofWord x.word = x := by
  cases x with
  | mk b => simp [ofWord, word]

theorem ext_word {x y : Binary64} (h : x.word = y.word) : x = y := by
  rw [← ofWord_word x, ← ofWord_word y, h]

/-- The total-order key determines the pattern. -/
theorem orderKey_injective {x y : Binary64} (h : x.orderKey = y.orderKey) : x = y := by
  have hx := word_lt x
  have hy := word_lt y
  apply ext_word
  unfold orderKey sign at h
  split at h <;> split at h <;> simp_all <;> omega

/-- The total order is total. -/
theorem totalLe_total (x y : Binary64) : totalLe x y = true ∨ totalLe y x = true := by
  unfold totalLe
  by_cases h : x.orderKey ≤ y.orderKey
  · exact Or.inl (decide_eq_true h)
  · exact Or.inr (decide_eq_true (by omega))

/-- The total order is transitive. -/
theorem totalLe_trans {x y z : Binary64} (h₁ : totalLe x y = true) (h₂ : totalLe y z = true) :
    totalLe x z = true := by
  unfold totalLe at *
  simp only [decide_eq_true_eq] at *
  omega

end Binary64

end ClusterSweep
