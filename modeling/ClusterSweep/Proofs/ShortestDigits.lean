import Mathlib
import ClusterSweep.Proofs.ClientFiles

/-!
# The shortest digits lie in the rounding interval

`Binary64.shortest mant e` walks the decimal grids of one significant digit, two, and so on, and
stops at the first grid with a point in the rounding interval of `x = mant · 2^e`.  This module
shows that the point it returns always lies in that interval (`Binary64.shortest_inside`):

* a `Scaled` number has the exact value `coef · 2^pow2 · 10^pow10` (`Scaled.val`), and its
  comparison and integer part are those of the value (`Scaled.cmp_eq`, `Scaled.floor_eq`);
* the decimal exponent `k`, an estimate from the binary exponent corrected by exact comparisons,
  has `10^k ≤ x` over the whole binary64 range (`zpow_decimalExponent_le`); the estimate is
  checked against every power of two of the range once, by evaluation;
* the search returns a point of the interval as soon as some grid it reaches has one
  (`search_inside`), by induction over the search's own recursion;
* the grid of seventeen digits below `10^(k+1)` is finer than the interval is wide, so one of
  the two grid points around `x` lies in it.
-/

namespace ClusterSweep.Binary64

namespace Scaled

/-- The value `coef · 2^pow2 · 10^pow10` of a scaled number. -/
def val (a : Scaled) : ℚ := a.coef * 2 ^ a.pow2 * 10 ^ a.pow10

/-- An integer power is a quotient of two natural powers, one of them `1`. -/
theorem zpow_eq_div_pow (b : ℚ) (z : ℤ) : b ^ z = b ^ z.toNat / b ^ (-z).toNat := by
  rcases le_or_gt 0 z with hz | hz
  · rw [show (-z).toNat = 0 by omega, pow_zero, div_one, ← zpow_natCast, Int.toNat_of_nonneg hz]
  · rw [show z.toNat = 0 by omega, pow_zero, ← zpow_natCast, Int.toNat_of_nonneg (by omega),
      one_div, ← zpow_neg, neg_neg]

theorem natCast_pow (b n : ℕ) : ((Nat.pow b n : ℕ) : ℚ) = (b : ℚ) ^ n := by
  rw [Nat.pow_eq]
  push_cast
  rfl

theorem fraction_snd_pos (a : Scaled) : 0 < a.fraction.2 :=
  Nat.mul_pos (Nat.pow_pos (by decide)) (Nat.pow_pos (by decide))

/-- A scaled number's fraction is its value. -/
theorem val_eq_fraction (a : Scaled) : a.val = a.fraction.1 / a.fraction.2 := by
  simp only [val, fraction, Nat.cast_mul, natCast_pow]
  rw [zpow_eq_div_pow 2 a.pow2, zpow_eq_div_pow 10 a.pow10]
  push_cast
  field_simp

/-- Comparing scaled numbers compares their values. -/
theorem cmp_eq (a b : Scaled) : a.cmp b = compare a.val b.val := by
  have ha := fraction_snd_pos a
  have hb := fraction_snd_pos b
  have ha' : (0 : ℚ) < a.fraction.2 := by exact_mod_cast ha
  have hb' : (0 : ℚ) < b.fraction.2 := by exact_mod_cast hb
  have hlt : a.fraction.1 * b.fraction.2 < b.fraction.1 * a.fraction.2 ↔ a.val < b.val := by
    rw [val_eq_fraction, val_eq_fraction, div_lt_div_iff₀ ha' hb']
    exact_mod_cast Iff.rfl
  have heq : a.fraction.1 * b.fraction.2 = b.fraction.1 * a.fraction.2 ↔ a.val = b.val := by
    rw [val_eq_fraction, val_eq_fraction, div_eq_div_iff ha'.ne' hb'.ne']
    exact_mod_cast Iff.rfl
  unfold cmp
  dsimp only
  rcases lt_trichotomy a.val b.val with h | h | h
  · rw [compare_lt_iff_lt.2 h, compare_lt_iff_lt.2 (hlt.2 h)]
  · rw [compare_eq_iff_eq.2 h, compare_eq_iff_eq.2 (heq.2 h)]
  · have h' : ¬ (a.fraction.1 * b.fraction.2 < b.fraction.1 * a.fraction.2) := fun h' => absurd (hlt.1 h') (not_lt.2 h.le)
    have h'' : a.fraction.1 * b.fraction.2 ≠ b.fraction.1 * a.fraction.2 := fun h'' => absurd (heq.1 h'') h.ne'
    rw [compare_gt_iff_gt.2 h, compare_gt_iff_gt.2 (by omega)]

/-- The integer part of a scaled number is the floor of its value. -/
theorem floor_eq (a : Scaled) : a.floor = ⌊a.val⌋₊ := by
  rw [val_eq_fraction, Nat.floor_div_eq_div]
  rfl

theorem val_pow10 (k : ℤ) : (⟨1, 0, k⟩ : Scaled).val = 10 ^ k := by simp [val]

theorem val_binary (coef : ℕ) (pow2 : ℤ) : (⟨coef, pow2, 0⟩ : Scaled).val = coef * 2 ^ pow2 := by
  simp [val]

end Scaled

/-! ## The decimal exponent -/

/-- One downward correction of a decimal exponent `k` of `x`: one less when `10^k` is past `x`. -/
def lowerExp (x : Scaled) (k : ℤ) : ℤ := if (Scaled.cmp ⟨1, 0, k⟩ x) == .gt then k - 1 else k

/-- One upward correction of a decimal exponent `k` of `x`: one more when `10^(k+1)` is not past
`x`. -/
def raiseExp (x : Scaled) (k : ℤ) : ℤ := if (Scaled.cmp ⟨1, 0, k + 1⟩ x) != .gt then k + 1 else k

/-- The decimal exponent is the estimate from the binary exponent, corrected twice downward and
twice upward. -/
theorem decimalExponent_eq (coef : ℕ) (pow2 : ℤ) :
    decimalExponent coef pow2 = raiseExp ⟨coef, pow2, 0⟩ (raiseExp ⟨coef, pow2, 0⟩
      (lowerExp ⟨coef, pow2, 0⟩ (lowerExp ⟨coef, pow2, 0⟩ ((coef.log2 + pow2) * 30103 / 100000)))) :=
  rfl

theorem lowerExp_eq (x : Scaled) (k : ℤ) :
    lowerExp x k = if x.val < 10 ^ k then k - 1 else k := by
  unfold lowerExp
  rw [Scaled.cmp_eq, Scaled.val_pow10]
  by_cases h : x.val < 10 ^ k
  · simp [h, compare_gt_iff_gt.2 h]
  · have : compare ((10 : ℚ) ^ k) x.val ≠ .gt := fun hc => h (compare_gt_iff_gt.1 hc)
    simp [h, this]

theorem raiseExp_eq (x : Scaled) (k : ℤ) :
    raiseExp x k = if 10 ^ (k + 1) ≤ x.val then k + 1 else k := by
  unfold raiseExp
  rw [Scaled.cmp_eq, Scaled.val_pow10]
  by_cases h : (10 : ℚ) ^ (k + 1) ≤ x.val
  · have : compare ((10 : ℚ) ^ (k + 1)) x.val ≠ .gt := fun hc => absurd (compare_gt_iff_gt.1 hc) (not_lt.2 h)
    simp [h, this]
  · simp [h, compare_gt_iff_gt.2 (not_le.1 h)]

/-- Two downward corrections reach a power of ten at most `x` from an estimate at most two too
high. -/
theorem le_lowerExp_lowerExp {x : Scaled} {k : ℤ} (h : (10 : ℚ) ^ (k - 2) ≤ x.val) :
    (10 : ℚ) ^ lowerExp x (lowerExp x k) ≤ x.val := by
  rw [lowerExp_eq x k]
  split_ifs with h₁
  · rw [lowerExp_eq]
    split_ifs with h₂
    · rwa [show k - 1 - 1 = k - 2 by ring]
    · exact not_lt.1 h₂
  · rw [lowerExp_eq, if_neg h₁]
    exact not_lt.1 h₁

/-- An upward correction keeps the power of ten at most `x`. -/
theorem le_raiseExp {x : Scaled} {k : ℤ} (h : (10 : ℚ) ^ k ≤ x.val) :
    (10 : ℚ) ^ raiseExp x k ≤ x.val := by
  rw [raiseExp_eq]
  split_ifs with h₁
  · exact h₁
  · exact h

/-- Below `2^1024` the estimate `⌊0.30103 · n⌋` of the decimal exponent of `2^n` is at most two too
high. -/
theorem pow_estimate_le : ∀ n < 1024, 10 ^ (n * 30103 / 100000) ≤ 100 * 2 ^ n := by
  decide +kernel

/-- Down to `2^-1074` the estimate `⌊-0.30103 · m⌋` of the decimal exponent of `2^-m` is at most
two too high. -/
theorem pow_le_estimate : ∀ m < 1075, 2 ^ m ≤ 100 * 10 ^ ((m * 30103 + 99999) / 100000) := by
  decide +kernel

/-- Over the exponents of binary64 numbers, `10` to the estimate less two is at most `2^lb`. -/
theorem zpow_estimate_le {lb : ℤ} (hlo : -1074 ≤ lb) (hhi : lb < 1024) :
    (10 : ℚ) ^ (lb * 30103 / 100000 - 2) ≤ 2 ^ lb := by
  rcases le_or_gt 0 lb with hlb | hlb
  · obtain ⟨n, rfl⟩ := Int.eq_ofNat_of_zero_le hlb
    have hcheck := pow_estimate_le n (by omega)
    have hdiv : (n : ℤ) * 30103 / 100000 = ((n * 30103 / 100000 : ℕ) : ℤ) := by omega
    have hq : (10 : ℚ) ^ (n * 30103 / 100000) ≤ 100 * 2 ^ n := by exact_mod_cast hcheck
    rw [hdiv, zpow_sub₀ (by norm_num), zpow_natCast, zpow_natCast, div_le_iff₀ (by norm_num)]
    linarith
  · obtain ⟨m, hm⟩ : ∃ m : ℕ, lb = -m := ⟨lb.natAbs, by omega⟩
    subst hm
    have hcheck := pow_le_estimate m (by omega)
    have hdiv : -(m : ℤ) * 30103 / 100000 = -(((m * 30103 + 99999) / 100000 : ℕ) : ℤ) := by omega
    have hq : (2 : ℚ) ^ m ≤ 100 * 10 ^ ((m * 30103 + 99999) / 100000) := by exact_mod_cast hcheck
    rw [hdiv, show -(((m * 30103 + 99999) / 100000 : ℕ) : ℤ) - 2 =
      -((((m * 30103 + 99999) / 100000 : ℕ) : ℤ) + 2) by ring, zpow_neg, zpow_neg,
      zpow_add₀ (by norm_num), zpow_natCast, zpow_natCast]
    apply inv_anti₀ (by positivity)
    norm_num
    linarith

/-- The decimal exponent of a binary64 value is at most its decimal magnitude: `10^k ≤ x`. -/
theorem zpow_decimalExponent_le {coef : ℕ} {pow2 : ℤ} (hc : 0 < coef)
    (hlo : -1074 ≤ (coef.log2 : ℤ) + pow2) (hhi : (coef.log2 : ℤ) + pow2 < 1024) :
    (10 : ℚ) ^ decimalExponent coef pow2 ≤ coef * 2 ^ pow2 := by
  have hpow : (2 : ℚ) ^ ((coef.log2 : ℤ) + pow2) ≤ coef * 2 ^ pow2 := by
    rw [zpow_add₀ two_ne_zero, zpow_natCast]
    have : (2 : ℚ) ^ coef.log2 ≤ coef := by exact_mod_cast Nat.log2_self_le hc.ne'
    exact mul_le_mul_of_nonneg_right this (zpow_nonneg (by norm_num) _)
  have hstart := (zpow_estimate_le hlo hhi).trans hpow
  rw [← Scaled.val_binary] at hstart ⊢
  rw [decimalExponent_eq]
  exact le_raiseExp (le_raiseExp (le_lowerExp_lowerExp hstart))

/-! ## The search over decimal grids -/

section Search

variable {closed : Bool} {low high : Scaled}

/-- Whether a scaled number lies in an interval depends on its value alone. -/
theorem inInterval_congr {a b : Scaled} (h : a.val = b.val) :
    inInterval closed low high a = inInterval closed low high b := by
  simp only [inInterval, Scaled.cmp_eq, h]

/-- A number strictly between the ends lies in the interval, open or closed. -/
theorem inInterval_of_lt {c : Scaled} (hlo : low.val < c.val) (hhi : c.val < high.val) :
    inInterval closed low high c = true := by
  simp [inInterval, Scaled.cmp_eq, compare_lt_iff_lt.2 hlo, compare_lt_iff_lt.2 hhi]

/-- A number in the interval lies between its ends, on an end only when the interval is closed. -/
theorem inside_of_inInterval {c : Scaled} (h : inInterval closed low high c = true) :
    (low.val < c.val ∨ closed = true ∧ low.val = c.val) ∧
      (c.val < high.val ∨ closed = true ∧ c.val = high.val) := by
  simp only [inInterval, Scaled.cmp_eq, Bool.and_eq_true] at h
  obtain ⟨h₁, h₂⟩ := h
  constructor
  · rcases hc : compare low.val c.val with _ | _ | _ <;> rw [hc] at h₁
    · exact .inl (compare_lt_iff_lt.1 hc)
    · exact .inr ⟨h₁, compare_eq_iff_eq.1 hc⟩
    · exact absurd h₁ (by simp)
  · rcases hc : compare c.val high.val with _ | _ | _ <;> rw [hc] at h₂
    · exact .inl (compare_lt_iff_lt.1 hc)
    · exact .inr ⟨h₂, compare_eq_iff_eq.1 hc⟩
    · exact absurd h₂ (by simp)

/-- Dropping trailing zeros keeps the value of a digit string. -/
theorem val_trimZeros (d : ℕ) (s : ℤ) (fuel : ℕ) :
    (⟨(trimZeros d s fuel).1, 0, (trimZeros d s fuel).2⟩ : Scaled).val =
      (⟨d, 0, s⟩ : Scaled).val := by
  induction fuel generalizing d s with
  | zero => rfl
  | succ fuel ih =>
    rw [trimZeros]
    split_ifs with h
    · rw [ih]
      simp only [Bool.and_eq_true, ne_eq, beq_iff_eq] at h
      have hd : (d : ℚ) = (d / 10 : ℕ) * 10 := by
        exact_mod_cast (Nat.div_mul_cancel (Nat.dvd_of_mod_eq_zero h.2)).symm
      simp only [Scaled.val, zpow_zero, mul_one]
      rw [hd, zpow_add_one₀ (by norm_num)]
      ring
    · rfl

/-- The choice of one grid: both candidates, the nearer (a tie to the even one); one of them; or
none.  What it picks is a candidate that lies in the interval. -/
theorem pick_eq_some {p q : Bool} {a d : ℕ} {tie : Option ℕ}
    (htie : tie = some a ∨ tie = some (a + 1))
    (h : (if (p && q) = true then tie else if p = true then some a
      else if q = true then some (a + 1) else none) = some d) :
    d = a ∧ p = true ∨ d = a + 1 ∧ q = true := by
  by_cases hp : p = true <;> by_cases hq : q = true <;> simp only [hp, hq] at h <;> simp at h
  · rcases htie with rfl | rfl <;> simp_all
  · exact .inl ⟨h.symm, hp⟩
  · exact .inr ⟨h.symm, hq⟩

/-- A grid picks nothing only when neither candidate lies in the interval. -/
theorem pick_eq_none {p q : Bool} {a : ℕ} {tie : Option ℕ} (htie : tie ≠ none)
    (h : (if (p && q) = true then tie else if p = true then some a
      else if q = true then some (a + 1) else none) = none) :
    p = false ∧ q = false := by
  by_cases hp : p = true <;> by_cases hq : q = true <;> simp_all

/-- The search ends in the interval once some grid it reaches has a candidate there: the first
grid with one picks it, and dropping trailing zeros keeps its value. -/
theorem search_inside (mant : ℕ) (e : ℤ) (k : ℤ) :
    ∀ (fuel n N : ℕ), n ≤ N → N ≤ n + fuel →
      (inInterval closed low high ⟨Scaled.floor ⟨4 * mant, e - 2, -(k - N + 1)⟩, 0, k - N + 1⟩ ||
        inInterval closed low high
          ⟨Scaled.floor ⟨4 * mant, e - 2, -(k - N + 1)⟩ + 1, 0, k - N + 1⟩) = true →
      inInterval closed low high ⟨(shortest.search mant e low high closed k n fuel).1, 0,
        (shortest.search mant e low high closed k n fuel).2⟩ = true := by
  intro fuel
  induction fuel with
  | zero =>
    intro n N hn hN hcand
    obtain rfl : N = n := by omega
    rw [shortest.search.eq_def]
    dsimp only
    split
    · -- the grid picks a candidate, which lies in the interval
      rename_i d heq
      rw [inInterval_congr (val_trimZeros d _ 20)]
      obtain ⟨rfl, hp⟩ | ⟨rfl, hq⟩ := pick_eq_some (by split <;> simp; omega) heq
      · exact hp
      · exact hq
    · -- a grid with a candidate in the interval always picks
      rename_i heq _
      obtain ⟨hp, hq⟩ := pick_eq_none (by split <;> simp) heq
      rw [hp, hq] at hcand
      exact absurd hcand (by decide)
    · contradiction
  | succ fuel ih =>
    intro n N hn hN hcand
    rw [shortest.search.eq_def]
    dsimp only
    split
    · rename_i d heq
      rw [inInterval_congr (val_trimZeros d _ 20)]
      obtain ⟨rfl, hp⟩ | ⟨rfl, hq⟩ := pick_eq_some (by split <;> simp; omega) heq
      · exact hp
      · exact hq
    · contradiction
    · -- no candidate on this grid: the grid with one lies further on
      rename_i f heq hf
      obtain rfl : f = fuel := by omega
      obtain ⟨hp, hq⟩ := pick_eq_none (by split <;> simp) heq
      rcases hn.lt_or_eq with hlt | rfl
      · exact ih (n + 1) N hlt (by omega) hcand
      · rw [hp, hq] at hcand
        exact absurd hcand (by decide)

end Search

/-! ## The rounding interval -/

/-- The significand and exponent of a finite number: at most 53 bits, exponents from `-1074` to
`971`, and all 53 bits above the least exponent. -/
theorem classify_finite_bounds {x : Binary64} {s : Bool} {mant : ℕ} {e : ℤ}
    (h : x.classify = .finite s mant e) :
    mant < 2 ^ 53 ∧ -1074 ≤ e ∧ e ≤ 971 ∧ (2 ^ 52 ≤ mant ∨ e = -1074) := by
  obtain ⟨hexp, -, hfields⟩ := classify_eq_finite h
  have hexp' : x.expField < 2048 := Nat.mod_lt _ (Nat.two_pow_pos 11)
  have hfrac : x.fraction < 2 ^ 52 := Nat.mod_lt _ (Nat.two_pow_pos 52)
  have hpow : Nat.pow 2 52 = 2 ^ 52 := rfl
  rcases hfields with ⟨-, rfl, rfl⟩ | ⟨h0, rfl, rfl⟩
  · exact ⟨by omega, le_rfl, by omega, .inr rfl⟩
  · rw [hpow]
    exact ⟨by omega, by omega, by omega, .inl (by omega)⟩

/-- The lower end of the rounding interval of `mant · 2^e`, in quarters of `2^e`: halfway down to
the number below, which lies half as far for the least number of a binade above the least
exponent. -/
def lowQuarters (mant : ℕ) (e : ℤ) : ℕ :=
  if mant = Nat.pow 2 52 && e > -1074 then 4 * mant - 1 else 4 * mant - 2

/-- The shortest digits are searched on the grids of 1 to 18 significant digits, from the decimal
exponent of the number, for the rounding interval of `mant · 2^e`. -/
theorem shortest_eq (mant : ℕ) (e : ℤ) :
    shortest mant e = shortest.search mant e ⟨lowQuarters mant e, e - 2, 0⟩
      ⟨4 * mant + 2, e - 2, 0⟩ (mant % 2 == 0) (decimalExponent mant e) 1 17 := rfl

/-- Of two scaled numbers with the same powers, the one with the smaller integer factor is
smaller. -/
theorem val_lt_of_coef_lt {c c' : ℕ} (h : c < c') (p q : ℤ) :
    (⟨c, p, q⟩ : Scaled).val < (⟨c', p, q⟩ : Scaled).val := by
  simp only [Scaled.val]
  have hc : (c : ℚ) < c' := by exact_mod_cast h
  have hp : (0 : ℚ) < 2 ^ p * 10 ^ q := by positivity
  rw [mul_assoc, mul_assoc]
  exact mul_lt_mul_of_pos_right hc hp

/-- The grid of 17 digits around a number of at most 53 bits, from a decimal exponent `k` with
`10^k ≤ x`, is finer than the number's rounding interval is wide. -/
theorem step_add_low_lt_high {mant : ℕ} {e k : ℤ} (hm : 0 < mant) (hm53 : mant < 2 ^ 53)
    (hk : (10 : ℚ) ^ k ≤ mant * 2 ^ e) :
    (10 : ℚ) ^ (k - 16) + (⟨lowQuarters mant e, e - 2, 0⟩ : Scaled).val <
      (⟨4 * mant + 2, e - 2, 0⟩ : Scaled).val := by
  -- everything in quarters `q` of `2^e`: the number is `4 · mant` of them
  have hq : (0 : ℚ) < 2 ^ (e - 2) := zpow_pos (by norm_num) _
  have hquarter : (2 : ℚ) ^ e = 4 * 2 ^ (e - 2) := by
    rw [zpow_sub₀ two_ne_zero]
    ring
  have hstep : (10 : ℚ) ^ (k - 16) ≤ 4 * mant * 2 ^ (e - 2) / 10 ^ 16 := by
    rw [zpow_sub₀ (by norm_num)]
    refine div_le_div_of_nonneg_right ?_ (by norm_num)
    rw [hquarter] at hk
    linarith
  simp only [Scaled.val, zpow_zero, mul_one, lowQuarters]
  split_ifs with hbot
  · -- the least number of a binade: the lower end a quarter below, the interval `3q` wide
    simp only [Bool.and_eq_true, decide_eq_true_eq] at hbot
    rw [hbot.1] at hstep ⊢
    have h₁ : 1 ≤ 4 * Nat.pow 2 52 := by norm_num [Nat.pow_eq]
    have h₂ : (4 * Nat.pow 2 52 : ℚ) * 2 ^ (e - 2) < 3 * 10 ^ 16 * 2 ^ (e - 2) :=
      mul_lt_mul_of_pos_right (by norm_num [Nat.pow_eq]) hq
    have h₃ : (4 * Nat.pow 2 52 : ℚ) * 2 ^ (e - 2) / 10 ^ 16 < 3 * 2 ^ (e - 2) := by
      rw [div_lt_iff₀ (by norm_num)]
      linarith
    push_cast [Nat.cast_sub h₁]
    linarith
  · -- half a step below, the interval `4q` wide
    have h₁ : 2 ≤ 4 * mant := by omega
    have h₂ : (4 * mant : ℚ) * 2 ^ (e - 2) < 4 * 10 ^ 16 * 2 ^ (e - 2) := by
      have : (mant : ℚ) < 10 ^ 16 := by exact_mod_cast hm53.trans (by norm_num)
      exact mul_lt_mul_of_pos_right (by linarith) hq
    have h₃ : (4 * mant : ℚ) * 2 ^ (e - 2) / 10 ^ 16 < 4 * 2 ^ (e - 2) := by
      rw [div_lt_iff₀ (by norm_num)]
      linarith
    push_cast [Nat.cast_sub h₁]
    linarith

/-- The decimal found for a positive finite number lies in its rounding interval.  The decimal
exponent `k` has `10^k ≤ x`, so the grid of 17 digits is finer than the interval is wide, and one
of the two grid points around `x` lies inside it. -/
theorem shortest_inside {x : Binary64} {mant : ℕ} {e : ℤ} (hx : x.classify = .finite false mant e)
    (hm : 0 < mant) :
    inInterval (mant % 2 == 0) ⟨lowQuarters mant e, e - 2, 0⟩ ⟨4 * mant + 2, e - 2, 0⟩
      ⟨(shortest mant e).1, 0, (shortest mant e).2⟩ = true := by
  obtain ⟨hm53, hlo, hhi, hnorm⟩ := classify_finite_bounds hx
  have hlog : mant.log2 ≤ 52 := by
    have := (Nat.log2_lt hm.ne').2 hm53
    omega
  set k := decimalExponent mant e with hk
  have hpowk : (10 : ℚ) ^ k ≤ mant * 2 ^ e :=
    zpow_decimalExponent_le hm (by omega) (by omega)
  rw [shortest_eq]
  refine search_inside mant e k 17 1 17 (by omega) (by omega) ?_
  -- the two points of the grid of 17 digits around `x`, a step `10^(k-16)` apart
  set s : ℤ := k - (17 : ℕ) + 1 with hs
  set v : ℚ := mant * 2 ^ e with hv
  set a := Scaled.floor ⟨4 * mant, e - 2, -s⟩ with ha
  have hquarter : (2 : ℚ) ^ (e - 2) * 4 = 2 ^ e := by
    rw [zpow_sub₀ two_ne_zero]
    norm_num
  have hval : (⟨4 * mant, e - 2, -s⟩ : Scaled).val = v / 10 ^ s := by
    simp only [Scaled.val, hv, zpow_neg, Nat.cast_mul, Nat.cast_ofNat, div_eq_mul_inv]
    rw [← hquarter]
    ring
  have hstep : (0 : ℚ) < 10 ^ s := zpow_pos (by norm_num) s
  have hvpos : 0 ≤ v := by positivity
  have ha₀ : (⟨a, 0, s⟩ : Scaled).val ≤ v := by
    have := Nat.floor_le (div_nonneg hvpos hstep.le)
    rw [ha, Scaled.floor_eq, hval]
    simp only [Scaled.val, zpow_zero, mul_one]
    rwa [le_div_iff₀ hstep] at this
  have ha₁ : v < (⟨a + 1, 0, s⟩ : Scaled).val := by
    have := Nat.lt_floor_add_one (v / 10 ^ s)
    rw [ha, Scaled.floor_eq, hval]
    simp only [Scaled.val, zpow_zero, mul_one]
    push_cast
    rwa [div_lt_iff₀ hstep] at this
  have hvq : (⟨4 * mant, e - 2, 0⟩ : Scaled).val = v := by
    simp only [Scaled.val, zpow_zero, mul_one, hv, Nat.cast_mul, Nat.cast_ofNat]
    rw [← hquarter]
    ring
  have hhigh : v < (⟨4 * mant + 2, e - 2, 0⟩ : Scaled).val := by
    rw [← hvq]
    exact val_lt_of_coef_lt (by omega) _ _
  have hwidth : (10 : ℚ) ^ s + (⟨lowQuarters mant e, e - 2, 0⟩ : Scaled).val <
      (⟨4 * mant + 2, e - 2, 0⟩ : Scaled).val := by
    rw [hs, show k - ((17 : ℕ) : ℤ) + 1 = k - 16 by omega]
    exact step_add_low_lt_high hm hm53 hpowk
  have hlow : (⟨lowQuarters mant e, e - 2, 0⟩ : Scaled).val < v := by
    rw [← hvq]
    exact val_lt_of_coef_lt (by unfold lowQuarters; split_ifs <;> omega) _ _
  -- the lower point lies inside, or else the upper one does, a step above it
  rcases lt_or_ge (⟨lowQuarters mant e, e - 2, 0⟩ : Scaled).val (⟨a, 0, s⟩ : Scaled).val
    with hin | hout
  · rw [inInterval_of_lt hin (ha₀.trans_lt hhigh), Bool.true_or]
  · have hnext : (⟨a + 1, 0, s⟩ : Scaled).val = (⟨a, 0, s⟩ : Scaled).val + 10 ^ s := by
      simp only [Scaled.val, zpow_zero, mul_one]
      push_cast
      ring
    rw [inInterval_of_lt (hlow.trans ha₁) (by linarith), Bool.or_true]

end ClusterSweep.Binary64
