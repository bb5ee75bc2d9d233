import Mathlib
import ClusterSweep.Binary64.Round

/-!
# Rounding is monotone

`Binary64.ofRatio` rounds a non-negative ratio to the nearest binary64 number.  Its patterns are
ordered as the ratios are (`word_ofRatio_mono`): the exponent it picks grows with the ratio
(`UnitExp.le_of_le`), at one exponent the rounded significand does (`roundAt_mono`), and a
higher exponent starts past every significand of a lower one, since rounding up stops at `2^53`.

Read back, the value `mant · 2^exp` of a non-negative finite number grows with its pattern
(`value_le_of_word_le`), and one over a positive finite number `m · 2^k` is the rounded ratio
`1 / (m · 2^k)` (`div_one_eq_ofRatio`).  Ratios are compared in `ℚ`: `scaledDivMod_spec` reads
the natural quotient and remainder of the code as the rational `num / (den · 2^e)`.
-/

namespace ClusterSweep.Binary64

/-! ## The scaled division -/

/-- A natural quotient and remainder, read back as a rational. -/
theorem natCast_div_add_mod_div (N d : ℕ) (hd : 0 < d) :
    ((N / d : ℕ) : ℚ) + ((N % d : ℕ) : ℚ) / d = N / d := by
  have hd' : (d : ℚ) ≠ 0 := by exact_mod_cast hd.ne'
  have h : ((N / d : ℕ) : ℚ) * d + (N % d : ℕ) = N := by exact_mod_cast Nat.div_add_mod' N d
  rw [eq_div_iff hd', add_mul, div_mul_cancel₀ _ hd', h]

theorem natCast_two_pow (k : ℕ) : ((Nat.pow 2 k : ℕ) : ℚ) = 2 ^ k := by
  rw [Nat.pow_eq]
  push_cast
  rfl

/-- `scaledDivMod` divides exactly: quotient plus remainder over divisor is `num / (den · 2^e)`. -/
theorem scaledDivMod_spec {num den q r d : ℕ} {e : ℤ} (hden : 0 < den)
    (h : scaledDivMod num den e = (q, r, d)) :
    0 < d ∧ r < d ∧ (q : ℚ) + r / d = num / den / 2 ^ e := by
  unfold scaledDivMod at h
  split at h
  · rename_i he
    simp only [Prod.mk.injEq] at h
    obtain ⟨rfl, rfl, rfl⟩ := h
    have hpos : 0 < den * Nat.pow 2 e.toNat := Nat.mul_pos hden (Nat.two_pow_pos _)
    have hpow : (2 : ℚ) ^ e = 2 ^ e.toNat := by rw [← zpow_natCast, Int.toNat_of_nonneg he]
    refine ⟨hpos, Nat.mod_lt _ hpos, ?_⟩
    rw [natCast_div_add_mod_div _ _ hpos, hpow, div_div, Nat.cast_mul, natCast_two_pow]
  · rename_i he
    simp only [Prod.mk.injEq] at h
    obtain ⟨rfl, rfl, rfl⟩ := h
    have hpow : (2 : ℚ) ^ e = ((2 : ℚ) ^ (-e).toNat)⁻¹ := by
      rw [← zpow_natCast, Int.toNat_of_nonneg (by omega), zpow_neg, inv_inv]
    refine ⟨hden, Nat.mod_lt _ hden, ?_⟩
    rw [natCast_div_add_mod_div _ _ hden, hpow, div_inv_eq_mul, Nat.cast_mul, natCast_two_pow]
    ring

/-- The quotient of the scaled division is the integer part of `num / (den · 2^e)`. -/
theorem scaledDivMod_fst_bounds {num den q r d : ℕ} {e : ℤ} (hden : 0 < den)
    (h : scaledDivMod num den e = (q, r, d)) :
    (q : ℚ) ≤ num / den / 2 ^ e ∧ (num / den / 2 ^ e : ℚ) < q + 1 := by
  obtain ⟨hd, hr, hval⟩ := scaledDivMod_spec hden h
  have hdq : (0 : ℚ) < d := by exact_mod_cast hd
  have hf₀ : (0 : ℚ) ≤ r / d := by positivity
  have hf₁ : (r : ℚ) / d < 1 := (div_lt_one hdq).2 (by exact_mod_cast hr)
  constructor <;> linarith

/-! ## Rounding to nearest, ties to even -/

theorem le_roundHalfEven (q r d : ℕ) : q ≤ roundHalfEven q r d := by
  unfold roundHalfEven
  split_ifs <;> omega

theorem roundHalfEven_le (q r d : ℕ) : roundHalfEven q r d ≤ q + 1 := by
  unfold roundHalfEven
  split_ifs <;> omega

/-- With the integer part fixed, rounding grows with the fraction `r / d`. -/
theorem roundHalfEven_le_of_mul_le {q r₁ d₁ r₂ d₂ : ℕ} (hd₁ : 0 < d₁) (hd₂ : 0 < d₂)
    (h : r₁ * d₂ ≤ r₂ * d₁) : roundHalfEven q r₁ d₁ ≤ roundHalfEven q r₂ d₂ := by
  -- a fraction of at least a half, or of more than a half, stays so when it grows
  have hhalf : d₁ ≤ 2 * r₁ → d₂ ≤ 2 * r₂ := fun h₁ =>
    Nat.le_of_mul_le_mul_left (by nlinarith) hd₁
  have hmore : d₁ < 2 * r₁ → d₂ < 2 * r₂ := fun h₁ =>
    Nat.lt_of_mul_lt_mul_left (a := d₁) (by nlinarith)
  unfold roundHalfEven
  split_ifs <;> omega

/-- Rounding to nearest, ties to even, is monotone in `q + r / d`. -/
theorem roundHalfEven_mono {q₁ r₁ d₁ q₂ r₂ d₂ : ℕ} (hr₁ : r₁ < d₁) (hr₂ : r₂ < d₂)
    (h : (q₁ : ℚ) + r₁ / d₁ ≤ q₂ + r₂ / d₂) :
    roundHalfEven q₁ r₁ d₁ ≤ roundHalfEven q₂ r₂ d₂ := by
  have hd₁ : (0 : ℚ) < d₁ := by exact_mod_cast Nat.zero_lt_of_lt hr₁
  have hd₂ : (0 : ℚ) < d₂ := by exact_mod_cast Nat.zero_lt_of_lt hr₂
  have hf₁ : (0 : ℚ) ≤ r₁ / d₁ := by positivity
  have hf₂ : (r₂ : ℚ) / d₂ < 1 := (div_lt_one hd₂).2 (by exact_mod_cast hr₂)
  have hq : q₁ ≤ q₂ := by
    have : (q₁ : ℚ) < q₂ + 1 := by linarith
    exact_mod_cast Nat.lt_succ_iff.1 (by exact_mod_cast this)
  rcases hq.lt_or_eq with hlt | rfl
  · calc roundHalfEven q₁ r₁ d₁ ≤ q₁ + 1 := roundHalfEven_le _ _ _
      _ ≤ q₂ := hlt
      _ ≤ roundHalfEven q₂ r₂ d₂ := le_roundHalfEven _ _ _
  · have hfrac : (r₁ : ℚ) / d₁ ≤ r₂ / d₂ := by linarith
    rw [div_le_div_iff₀ hd₁ hd₂] at hfrac
    exact roundHalfEven_le_of_mul_le (Nat.zero_lt_of_lt hr₁) (Nat.zero_lt_of_lt hr₂)
      (by exact_mod_cast hfrac)

/-! ## The exponent -/

/-- `e` is the exponent of the last significand bit for the positive ratio `x`: `x` lies in
`[2^(52+e), 2^(53+e))`, or below it at the least exponent. -/
def UnitExp (x : ℚ) (e : ℤ) : Prop :=
  -1074 ≤ e ∧ x < 2 ^ (53 + e) ∧ (e = -1074 ∨ 2 ^ (52 + e) ≤ x)

/-- The significand of `num / den` at exponent `e`, rounded to nearest, ties to even. -/
def roundAt (num den : ℕ) (e : ℤ) : ℕ :=
  match scaledDivMod num den e with
  | (q, r, d) => roundHalfEven q r d

/-- Comparisons of `x / 2^e` with a power of two are comparisons of `x`. -/
theorem div_zpow_lt_iff {x : ℚ} {k e : ℤ} : x / 2 ^ e < 2 ^ k ↔ x < 2 ^ (k + e) := by
  rw [div_lt_iff₀ (zpow_pos two_pos e), zpow_add₀ two_ne_zero]

theorem zpow_le_div_zpow_iff {x : ℚ} {k e : ℤ} : 2 ^ k ≤ x / 2 ^ e ↔ 2 ^ (k + e) ≤ x := by
  rw [le_div_iff₀ (zpow_pos two_pos e), zpow_add₀ two_ne_zero]

/-- A positive ratio lies strictly between the powers of two around `2^(log2 num - log2 den)`. -/
theorem zpow_log2_lt {num den : ℕ} (hn : 0 < num) (hd : 0 < den) :
    (2 : ℚ) ^ ((num.log2 : ℤ) - den.log2 - 1) < num / den ∧
      (num / den : ℚ) < 2 ^ ((num.log2 : ℤ) - den.log2 + 1) := by
  have hn₁ : (2 : ℚ) ^ num.log2 ≤ num := by exact_mod_cast Nat.log2_self_le hn.ne'
  have hn₂ : (num : ℚ) < 2 ^ (num.log2 + 1) := by exact_mod_cast Nat.lt_log2_self
  have hd₁ : (2 : ℚ) ^ den.log2 ≤ den := by exact_mod_cast Nat.log2_self_le hd.ne'
  have hd₂ : (den : ℚ) < 2 ^ (den.log2 + 1) := by exact_mod_cast Nat.lt_log2_self
  have hden : (0 : ℚ) < den := by exact_mod_cast hd
  constructor
  · rw [lt_div_iff₀ hden]
    calc (2 : ℚ) ^ ((num.log2 : ℤ) - den.log2 - 1) * den
        < 2 ^ ((num.log2 : ℤ) - den.log2 - 1) * 2 ^ (den.log2 + 1) := by gcongr
      _ = 2 ^ num.log2 := by
        rw [← zpow_natCast, ← zpow_natCast, ← zpow_add₀ two_ne_zero]
        push_cast
        ring_nf
      _ ≤ num := hn₁
  · rw [div_lt_iff₀ hden]
    calc (num : ℚ) < 2 ^ (num.log2 + 1) := hn₂
      _ = 2 ^ ((num.log2 : ℤ) - den.log2 + 1) * 2 ^ den.log2 := by
        rw [← zpow_natCast, ← zpow_natCast, ← zpow_add₀ two_ne_zero]
        push_cast
        ring_nf
      _ ≤ 2 ^ ((num.log2 : ℤ) - den.log2 + 1) * den := by gcongr

/-- An integer part of 52 or 53 bits at `e₀` places the ratio in a binade: that of `e₀` with 53
bits, one doubling lower with 52. -/
theorem binade_of_quotient {num den : ℕ} {e₀ e : ℤ} (hd : 0 < den)
    (hlo : (2 : ℚ) ^ (51 + e₀) < num / den) (hhi : (num / den : ℚ) < 2 ^ (53 + e₀))
    (he : (if (scaledDivMod num den e₀).1 < Nat.pow 2 52 then e₀ - 1 else e₀) = e) :
    2 ^ (52 + e) ≤ (num / den : ℚ) ∧ (num / den : ℚ) < 2 ^ (53 + e) := by
  rcases hq : scaledDivMod num den e₀ with ⟨q, r, d⟩
  obtain ⟨hq₀, hq₁⟩ := scaledDivMod_fst_bounds hd hq
  rw [hq] at he
  split at he
  · -- 52 bits: the doubling at `e₀ - 1` has 53
    rename_i hsmall
    have hsmall' : (q : ℚ) + 1 ≤ 2 ^ (52 : ℤ) := by
      have : q + 1 ≤ Nat.pow 2 52 := hsmall
      exact_mod_cast this
    subst he
    constructor
    · rw [show (52 : ℤ) + (e₀ - 1) = 51 + e₀ by omega]
      exact hlo.le
    · have h := div_zpow_lt_iff.1 (hq₁.trans_le hsmall')
      rwa [show (52 : ℤ) + e₀ = 53 + (e₀ - 1) by omega] at h
  · rename_i hbig
    have hbig' : (2 : ℚ) ^ (52 : ℤ) ≤ q := by
      have : Nat.pow 2 52 ≤ q := Nat.le_of_not_lt hbig
      exact_mod_cast this
    subst he
    exact ⟨zpow_le_div_zpow_iff.1 (hbig'.trans hq₀), hhi⟩

/-- Rounding a positive ratio picks the exponent of its binade, or the least one below the
normal range. -/
theorem ofRatio_eq_encode {num den : ℕ} (hn : 0 < num) (hd : 0 < den) :
    ∃ e, UnitExp (num / den) e ∧ ofRatio num den = encode (roundAt num den e) e := by
  obtain ⟨hlo, hhi⟩ := zpow_log2_lt hn hd
  set e₀ : ℤ := (num.log2 : ℤ) - den.log2 - 52 with he₀
  -- by the bounds of `log2`, the integer part at `e₀` has 52 or 53 bits
  obtain ⟨hnorm₁, hnorm₂⟩ := @binade_of_quotient num den e₀ _ hd
    (by rw [show (51 : ℤ) + e₀ = num.log2 - den.log2 - 1 by omega]; exact hlo)
    (by rw [show (53 : ℤ) + e₀ = num.log2 - den.log2 + 1 by omega]; exact hhi) rfl
  set e₁ := if (scaledDivMod num den e₀).1 < Nat.pow 2 52 then e₀ - 1 else e₀ with he₁
  refine ⟨if e₁ < -1074 then -1074 else e₁, ?_, ?_⟩
  · -- below the normal range the exponent stops at `-1074`, where the ratio is yet smaller
    split
    · rename_i hsub
      refine ⟨le_rfl, hnorm₂.trans_le ?_, .inl rfl⟩
      exact zpow_le_zpow_right₀ (by norm_num) (by omega)
    · exact ⟨by omega, hnorm₂, .inr hnorm₁⟩
  · simp only [ofRatio, hn.ne', hd.ne', if_false]
    rfl

/-- The exponent of a ratio's last significand bit grows with the ratio. -/
theorem UnitExp.le_of_le {x y : ℚ} {e f : ℤ} (hx : UnitExp x e) (hy : UnitExp y f) (h : x ≤ y) :
    e ≤ f := by
  obtain ⟨hmin, -, hlow | hlow⟩ := hx
  · exact hlow ▸ hy.1
  · have : (2 : ℚ) ^ (52 + e) < 2 ^ (53 + f) := hlow.trans_lt (h.trans_lt hy.2.1)
    have := (zpow_lt_zpow_iff_right₀ (by norm_num : (1 : ℚ) < 2)).1 this
    omega

section RoundAt

variable {num den : ℕ} {e : ℤ}

/-- Below `2^(53+e)` the rounded significand is at most `2^53`: rounding up can reach the next
power of two and no further. -/
theorem roundAt_le (hden : 0 < den) (h : (num / den : ℚ) < 2 ^ (53 + e)) :
    roundAt num den e ≤ Nat.pow 2 53 := by
  rcases hs : scaledDivMod num den e with ⟨q, r, d⟩
  obtain ⟨hq, -⟩ := scaledDivMod_fst_bounds hden hs
  have hq' : (q : ℚ) < 2 ^ (53 : ℤ) := hq.trans_lt (div_zpow_lt_iff.2 h)
  have : q < Nat.pow 2 53 := by exact_mod_cast hq'
  simp only [roundAt, hs]
  have := roundHalfEven_le q r d
  omega

/-- From `2^(52+e)` up the rounded significand has all 53 bits. -/
theorem le_roundAt (hden : 0 < den) (h : (2 : ℚ) ^ (52 + e) ≤ num / den) :
    Nat.pow 2 52 ≤ roundAt num den e := by
  rcases hs : scaledDivMod num den e with ⟨q, r, d⟩
  obtain ⟨-, hq⟩ := scaledDivMod_fst_bounds hden hs
  have hq' : (2 : ℚ) ^ (52 : ℤ) < q + 1 := (zpow_le_div_zpow_iff.2 h).trans_lt hq
  have : Nat.pow 2 52 < q + 1 := by exact_mod_cast hq'
  simp only [roundAt, hs]
  have := le_roundHalfEven q r d
  omega

/-- At a fixed exponent the rounded significand grows with the ratio. -/
theorem roundAt_mono {num₂ den₂ : ℕ} (hden : 0 < den) (hden₂ : 0 < den₂)
    (h : (num / den : ℚ) ≤ num₂ / den₂) : roundAt num den e ≤ roundAt num₂ den₂ e := by
  rcases hs : scaledDivMod num den e with ⟨q, r, d⟩
  rcases hs₂ : scaledDivMod num₂ den₂ e with ⟨q₂, r₂, d₂⟩
  obtain ⟨-, hr, hval⟩ := scaledDivMod_spec hden hs
  obtain ⟨-, hr₂, hval₂⟩ := scaledDivMod_spec hden₂ hs₂
  simp only [roundAt, hs, hs₂]
  apply roundHalfEven_mono hr hr₂
  rw [hval, hval₂]
  exact div_le_div_of_nonneg_right h (zpow_nonneg (by norm_num) e)

end RoundAt

/-! ## Patterns of rounded ratios -/

/-- `encode` writes the pattern `(e + 1074) · 2^52 + q`, capped at that of `+∞`. -/
theorem word_encode (q : ℕ) (e : ℤ) :
    (encode q e).word = min ((e + 1074).toNat * Nat.pow 2 52 + q) 0x7FF0000000000000 := by
  simp only [encode]
  split
  · rename_i hw
    rw [word_ofWord (hw.trans (by decide)), min_eq_left hw.le]
  · rename_i hw
    rw [min_eq_right (by omega)]
    rfl

/-- Rounding is monotone: a larger ratio never gives a smaller pattern. -/
theorem word_ofRatio_mono {num₁ den₁ num₂ den₂ : ℕ} (hd₁ : 0 < den₁) (hd₂ : 0 < den₂)
    (h : (num₁ / den₁ : ℚ) ≤ num₂ / den₂) :
    (ofRatio num₁ den₁).word ≤ (ofRatio num₂ den₂).word := by
  rcases Nat.eq_zero_or_pos num₁ with rfl | hn₁
  · rw [ofRatio_zero_left]
    exact Nat.zero_le _
  have hn₂ : 0 < num₂ := by
    by_contra hn₂
    have hpos : (0 : ℚ) < num₁ / den₁ := by positivity
    rw [Nat.eq_zero_of_not_pos hn₂, Nat.cast_zero, zero_div] at h
    exact absurd h (not_le.2 hpos)
  obtain ⟨e₁, hu₁, heq₁⟩ := ofRatio_eq_encode hn₁ hd₁
  obtain ⟨e₂, hu₂, heq₂⟩ := ofRatio_eq_encode hn₂ hd₂
  rw [heq₁, heq₂, word_encode, word_encode]
  apply min_le_min_right
  have hpow : Nat.pow 2 52 = 4503599627370496 := rfl
  rcases (hu₁.le_of_le hu₂ h).lt_or_eq with hlt | rfl
  · -- a higher exponent starts past every significand of a lower one
    have hq₁ := roundAt_le hd₁ hu₁.2.1
    have hq₂ := le_roundAt hd₂ (hu₂.2.2.resolve_left (by have := hu₁.1; omega))
    have hpow53 : Nat.pow 2 53 = 9007199254740992 := rfl
    rw [hpow] at hq₂ ⊢
    rw [hpow53] at hq₁
    have := hu₁.1
    omega
  · have := roundAt_mono (e := e₁) hd₁ hd₂ h
    omega

/-- A rounded ratio is `+0`, a positive finite number or `+∞`: its pattern never passes that of
`+∞`. -/
theorem word_ofRatio_le (num den : ℕ) : (ofRatio num den).word ≤ 0x7FF0000000000000 := by
  rcases Nat.eq_zero_or_pos num with rfl | hn
  · rw [ofRatio_zero_left]
    decide
  rcases Nat.eq_zero_or_pos den with rfl | hd
  · simp only [ofRatio, hn.ne', if_false, if_true]
    decide
  obtain ⟨e, -, heq⟩ := ofRatio_eq_encode hn hd
  rw [heq, word_encode]
  exact min_le_right _ _

/-! ## Reading a pattern back -/

/-- What a finite kind says about the fields of its pattern. -/
theorem classify_eq_finite {x : Binary64} {s : Bool} {m : ℕ} {k : ℤ}
    (h : x.classify = .finite s m k) :
    x.expField ≠ 2047 ∧ s = x.sign ∧
      (x.expField = 0 ∧ m = x.fraction ∧ k = -1074 ∨
        x.expField ≠ 0 ∧ m = x.fraction + Nat.pow 2 52 ∧ k = x.expField - 1075) := by
  unfold classify at h
  split at h
  · split at h <;> exact nomatch h
  · rename_i h2047
    split at h
    · rename_i h0
      simp only [Kind.finite.injEq] at h
      obtain ⟨rfl, rfl, rfl⟩ := h
      exact ⟨h2047, rfl, .inl ⟨h0, rfl, rfl⟩⟩
    · rename_i h0
      simp only [Kind.finite.injEq] at h
      obtain ⟨rfl, rfl, rfl⟩ := h
      exact ⟨h2047, rfl, .inr ⟨h0, rfl, rfl⟩⟩

/-- A pattern below that of `+∞` is a non-negative finite number. -/
theorem exists_classify_eq_finite {x : Binary64} (h : x.word < 0x7FF0000000000000) :
    ∃ m k, x.classify = .finite false m k := by
  have hsign : x.sign = false := by
    simp only [sign, decide_eq_false_iff_not, Nat.pow_eq]
    omega
  have hexp : x.expField ≠ 2047 := by
    simp only [expField, Nat.pow_eq]
    omega
  unfold classify
  rw [if_neg hexp, hsign]
  split
  · exact ⟨_, _, rfl⟩
  · exact ⟨_, _, rfl⟩

/-- A pattern with a clear sign bit is its exponent field above its fraction field. -/
theorem word_eq_of_sign {x : Binary64} (h : x.sign = false) :
    x.word = x.expField * Nat.pow 2 52 + x.fraction := by
  simp only [sign, decide_eq_false_iff_not, expField, fraction, Nat.pow_eq] at h ⊢
  omega

/-- On non-negative finite numbers the value grows with the pattern. -/
theorem value_le_of_word_le {x y : Binary64} {m₁ m₂ : ℕ} {k₁ k₂ : ℤ}
    (hx : x.classify = .finite false m₁ k₁) (hy : y.classify = .finite false m₂ k₂)
    (h : x.word ≤ y.word) : (m₁ : ℚ) * 2 ^ k₁ ≤ m₂ * 2 ^ k₂ := by
  obtain ⟨-, hxs, hxf⟩ := classify_eq_finite hx
  obtain ⟨-, hys, hyf⟩ := classify_eq_finite hy
  have hwx := word_eq_of_sign hxs.symm
  have hwy := word_eq_of_sign hys.symm
  have hFx : x.fraction < Nat.pow 2 52 := Nat.mod_lt _ (Nat.two_pow_pos 52)
  have hFy : y.fraction < Nat.pow 2 52 := Nat.mod_lt _ (Nat.two_pow_pos 52)
  have hpow : Nat.pow 2 52 = 4503599627370496 := rfl
  rw [hpow] at hwx hwy hFx hFy hxf hyf
  rcases Nat.lt_or_ge x.expField y.expField with hlt | hge
  · -- a higher exponent field starts at `2^52 · 2^k₂`, past every value of a lower one
    obtain ⟨hy0, rfl, rfl⟩ := hyf.resolve_left (fun h => by omega)
    have hlow : (m₁ : ℚ) * 2 ^ k₁ ≤ 2 ^ 52 * 2 ^ ((y.expField : ℤ) - 1075) := by
      rcases hxf with ⟨hx0, rfl, rfl⟩ | ⟨hx0, rfl, rfl⟩
      · have hm : (x.fraction : ℚ) ≤ 2 ^ 52 := by exact_mod_cast (by omega : x.fraction ≤ 2 ^ 52)
        gcongr
        · norm_num
        · omega
      · have hm : ((x.fraction + 4503599627370496 : ℕ) : ℚ) ≤ 2 ^ 53 := by
          exact_mod_cast (by omega : x.fraction + 4503599627370496 ≤ 2 ^ 53)
        calc ((x.fraction + 4503599627370496 : ℕ) : ℚ) * 2 ^ ((x.expField : ℤ) - 1075)
            ≤ 2 ^ 53 * 2 ^ ((x.expField : ℤ) - 1075) := by gcongr
          _ = 2 ^ 52 * 2 ^ ((x.expField : ℤ) + 1 - 1075) := by
            rw [show (x.expField : ℤ) + 1 - 1075 = 1 + ((x.expField : ℤ) - 1075) by ring,
              zpow_add₀ two_ne_zero]
            ring
          _ ≤ 2 ^ 52 * 2 ^ ((y.expField : ℤ) - 1075) := by
            have : (2 : ℚ) ^ ((x.expField : ℤ) + 1 - 1075) ≤ 2 ^ ((y.expField : ℤ) - 1075) :=
              zpow_le_zpow_right₀ (by norm_num) (by omega)
            linarith
    refine hlow.trans ?_
    gcongr
    exact_mod_cast (by omega : 2 ^ 52 ≤ y.fraction + 4503599627370496)
  · -- the same exponent field: the fractions compare
    have heq : x.expField = y.expField := by omega
    have hF : x.fraction ≤ y.fraction := by omega
    rcases hxf with ⟨hx0, rfl, rfl⟩ | ⟨hx0, rfl, rfl⟩ <;>
      rcases hyf with ⟨hy0, rfl, rfl⟩ | ⟨hy0, rfl, rfl⟩
    · gcongr
    · omega
    · omega
    · rw [heq]
      gcongr

/-- A non-negative number that is no NaN: `+0`, a positive finite number or `+∞`. -/
theorem isNaN_eq_false_of_word_le {x : Binary64} (h : x.word ≤ 0x7FF0000000000000) :
    x.isNaN = false := by
  simp only [isNaN, expField, fraction, Nat.pow_eq, Bool.and_eq_false_iff, beq_eq_false_iff_ne,
    bne_eq_false_iff_eq]
  omega

/-- Non-negative numbers that are no NaN are equal for IEEE exactly when their patterns are. -/
theorem eq_eq_true_iff {x y : Binary64} (hx : x.word ≤ 0x7FF0000000000000)
    (hy : y.word ≤ 0x7FF0000000000000) : eq x y = true ↔ x = y := by
  simp only [eq, isNaN_eq_false_of_word_le hx, isNaN_eq_false_of_word_le hy, isZero, Nat.pow_eq,
    Bool.not_false, Bool.true_and, Bool.or_eq_true, Bool.and_eq_true, beq_iff_eq]
  constructor
  · rintro (⟨h₁, h₂⟩ | h)
    · exact ext_word (by omega)
    · exact ext_word (by simp only [word, h])
  · exact fun h => .inr (congrArg bits h)

/-! ## Quotients -/

/-- `ofScaled` rounds the ratio `mant · 2^k / den`. -/
theorem ofScaled_eq_ofRatio (mant : ℕ) (k : ℤ) {den : ℕ} (hden : 0 < den) :
    ∃ N D : ℕ, 0 < D ∧ (N / D : ℚ) = mant * 2 ^ k / den ∧ ofScaled mant k den = ofRatio N D := by
  unfold ofScaled
  split
  · rename_i hk
    refine ⟨_, _, hden, ?_, rfl⟩
    rw [Nat.cast_mul, natCast_two_pow, ← zpow_natCast, Int.toNat_of_nonneg hk]
  · rename_i hk
    refine ⟨_, _, Nat.mul_pos hden (Nat.two_pow_pos _), ?_, rfl⟩
    rw [Nat.cast_mul, Nat.cast_pow, Nat.cast_ofNat, ← zpow_natCast, Int.toNat_of_nonneg (by omega),
      zpow_neg, div_mul_eq_div_div, div_inv_eq_mul, mul_div_right_comm]

/-- Clearing the sign bit of a number whose sign bit is clear changes nothing. -/
theorem withSign_false_of_word_lt {x : Binary64} (h : x.word < Nat.pow 2 63) :
    withSign false x = x := by
  apply ext_word
  simp only [withSign, Bool.false_eq_true, if_false, Nat.mod_eq_of_lt h]
  exact word_ofWord (x.word_lt)

/-- One over a positive finite number `m · 2^k` is the rounded ratio `1 / (m · 2^k)`. -/
theorem div_one_eq_ofRatio {y : Binary64} {m : ℕ} {k : ℤ} (hy : y.classify = .finite false m k)
    (hm : 0 < m) :
    ∃ N D : ℕ, 0 < D ∧ (N / D : ℚ) = 1 / (m * 2 ^ k) ∧ div one y = ofRatio N D := by
  have hone : one.classify = .finite false (Nat.pow 2 52) (-52) := by decide
  have hsy : y.sign = false := (classify_eq_finite hy).2.1.symm
  have hso : one.sign = false := by decide
  obtain ⟨N, D, hD, hval, heq⟩ := ofScaled_eq_ofRatio (Nat.pow 2 52) (-52 - k) hm
  refine ⟨N, D, hD, ?_, ?_⟩
  · rw [hval, natCast_two_pow, zpow_sub₀ two_ne_zero, zpow_neg]
    field_simp
  · simp only [div, hone, hy, hsy, hso, bne_self_eq_false, hm.ne', if_false, heq]
    exact withSign_false_of_word_lt ((word_ofRatio_le N D).trans_lt (by decide))

end ClusterSweep.Binary64
