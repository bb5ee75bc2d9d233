import Mathlib
import ClusterSweep.Proofs.ShortestDigits

/-!
# Shortest texts read back

Every number other than a NaN reads back from its shortest text (`Binary64.read?_plainText`),
so a latency file written one sample per line reads back as its samples, in order
(`Latency.parseSamples_samplesText`):

* a ratio inside the rounding interval of a positive finite number rounds to that number
  (`ofRatio_eq_of_inside`): inside its binade the significand rounds to `mant`; a ratio just
  below the least number of a binade lies in the binade below, where the significand rounds up
  to `2^53`, which is the same pattern;
* a decimal between `10^-325` and `10^310` is read as its exact value, correctly rounded
  (`ofDecimal_eq_ofRatio`), and the rounding interval of a finite number lies in that range;
* a positional text is worth exactly its digits (`read?_positional`), so the shortest digits,
  which lie in the rounding interval, read back as the number (`read?_positional_shortest`);
* a minus sign sets the sign bit back (`read?_minus_of_isDigit`), and the zeros and infinities
  read back from their words.
-/

namespace ClusterSweep.Binary64

/-! ## Reading back from the rounding interval -/

/-- Rounding `q + r/d` half to even gives `m` when it lies within a half of `m`, a half away only
for an even `m`. -/
theorem roundHalfEven_eq_of_near {q r d m : ℕ} (hd : 0 < d) (hr : r < d) {w : ℚ}
    (hw : (q : ℚ) + r / d = w)
    (hlo : (m : ℚ) - 1 / 2 < w ∨ m % 2 = 0 ∧ w = m - 1 / 2)
    (hhi : w < m + 1 / 2 ∨ m % 2 = 0 ∧ w = m + 1 / 2) :
    roundHalfEven q r d = m := by
  have hdq : (0 : ℚ) < d := by exact_mod_cast hd
  -- the fraction `f = r / d`, compared with a half through `2 · r` against `d`
  set f : ℚ := r / d with hf
  have hfd : f * d = r := div_mul_cancel₀ _ hdq.ne'
  have hf₀ : 0 ≤ f := by positivity
  have hf₁ : f < 1 := by
    rw [hf, div_lt_one hdq]
    exact_mod_cast hr
  have hm_lo : (m : ℚ) - 1 / 2 ≤ w := by rcases hlo with h | ⟨-, h⟩ <;> linarith
  have hm_hi : w ≤ m + 1 / 2 := by rcases hhi with h | ⟨-, h⟩ <;> linarith
  unfold roundHalfEven
  split_ifs with hup htie hodd
  · -- more than a half: up to `q + 1`
    have hup' : (d : ℚ) < 2 * r := by exact_mod_cast hup
    have hgt : 1 / 2 < f := lt_of_mul_lt_mul_right (by linarith : (1 / 2 : ℚ) * d < f * d) hdq.le
    have h₁ : q < m := by exact_mod_cast (by linarith : (q : ℚ) < m)
    have h₂ : m < q + 2 := by exact_mod_cast (by linarith : (m : ℚ) < q + 2)
    omega
  · -- exactly a half with `q` odd: `m` is `q + 1`, since `q` a half below is odd
    have htie' : (d : ℚ) = 2 * r := by exact_mod_cast htie.symm
    have hhalf : f = 1 / 2 := mul_right_cancel₀ hdq.ne' (by linarith : f * d = 1 / 2 * d)
    have h₁ : q ≤ m := by exact_mod_cast (by linarith : (q : ℚ) ≤ m)
    have h₂ : m ≤ q + 1 := by exact_mod_cast (by linarith : (m : ℚ) ≤ q + 1)
    rcases h₁.lt_or_eq with h | rfl
    · omega
    · rcases hhi with h | ⟨heven, -⟩
      · linarith
      · omega
  · -- exactly a half with `q` even: `m` is `q`, since `q + 1` a half above is odd
    have htie' : (d : ℚ) = 2 * r := by exact_mod_cast htie.symm
    have hhalf : f = 1 / 2 := mul_right_cancel₀ hdq.ne' (by linarith : f * d = 1 / 2 * d)
    have h₁ : q ≤ m := by exact_mod_cast (by linarith : (q : ℚ) ≤ m)
    have h₂ : m ≤ q + 1 := by exact_mod_cast (by linarith : (m : ℚ) ≤ q + 1)
    rcases h₂.lt_or_eq with h | rfl
    · omega
    · rcases hlo with h | ⟨heven, -⟩
      · push_cast at h
        linarith
      · omega
  · -- less than a half: `q`
    have hlt' : (2 * r : ℚ) < d := by exact_mod_cast (by omega : 2 * r < d)
    have hlt : f < 1 / 2 := lt_of_mul_lt_mul_right (by linarith : f * d < 1 / 2 * d) hdq.le
    have h₁ : q < m + 1 := by exact_mod_cast (by linarith : (q : ℚ) < m + 1)
    have h₂ : m < q + 1 := by exact_mod_cast (by linarith : (m : ℚ) < q + 1)
    omega

/-- `encode` writes the pattern of a number whose exponent and significand it is given. -/
theorem encode_eq_of_word {x : Binary64} {q : ℕ} {e : ℤ}
    (h : (e + 1074).toNat * Nat.pow 2 52 + q = x.word) (hlt : x.word < 0x7FF0000000000000) :
    encode q e = x := by
  simp only [encode]
  rw [h, if_pos hlt, ofWord_word]

/-- The ends of the rounding interval of `mant · 2^e` in units of `2^e`. -/
theorem val_low (mant : ℕ) (e : ℤ) :
    (⟨lowQuarters mant e, e - 2, 0⟩ : Scaled).val = lowQuarters mant e / 4 * 2 ^ e := by
  simp only [Scaled.val, zpow_zero, mul_one, zpow_sub₀ (two_ne_zero' ℚ)]
  ring

theorem val_high (mant : ℕ) (e : ℤ) :
    (⟨4 * mant + 2, e - 2, 0⟩ : Scaled).val = (mant + 1 / 2) * 2 ^ e := by
  simp only [Scaled.val, zpow_zero, mul_one, zpow_sub₀ (two_ne_zero' ℚ)]
  push_cast
  ring

/-- The lower end lies a half below `mant`, or a quarter below for the least number of a binade
above the least exponent. -/
theorem lowQuarters_ge {mant : ℕ} (hm : 0 < mant) (e : ℤ) : (mant : ℚ) - 1 / 2 ≤ lowQuarters mant e / 4 := by
  unfold lowQuarters
  split_ifs
  · have h : 1 ≤ 4 * mant := by omega
    push_cast [Nat.cast_sub h]
    linarith
  · have h : 2 ≤ 4 * mant := by omega
    push_cast [Nat.cast_sub h]
    linarith

/-- Rounding a ratio that lies in the rounding interval of a positive finite number gives that
number: in the number's binade the significand rounds to `mant`; just below the least number of a
binade it rounds up to `2^53` one exponent lower, which is the same pattern. -/
theorem ofRatio_eq_of_inside {x : Binary64} {mant : ℕ} {e : ℤ}
    (hx : x.classify = .finite false mant e) (hm : 0 < mant) {N D : ℕ} (hD : 0 < D)
    (hlo : lowQuarters mant e / 4 * 2 ^ e < (N / D : ℚ) ∨
      mant % 2 = 0 ∧ lowQuarters mant e / 4 * 2 ^ e = (N / D : ℚ))
    (hhi : (N / D : ℚ) < (mant + 1 / 2) * 2 ^ e ∨
      mant % 2 = 0 ∧ (N / D : ℚ) = (mant + 1 / 2) * 2 ^ e) :
    ofRatio N D = x := by
  obtain ⟨hm53, hlo_e, hhi_e, hnorm⟩ := classify_finite_bounds hx
  obtain ⟨hword, hwlt⟩ := word_of_classify hx
  have h2e : (0 : ℚ) < 2 ^ e := zpow_pos (by norm_num) e
  have hlowQ := lowQuarters_ge hm e
  have hr_lo : lowQuarters mant e / 4 * 2 ^ e ≤ (N / D : ℚ) := by
    rcases hlo with h | ⟨-, h⟩ <;> linarith
  have hr_hi : (N / D : ℚ) ≤ (mant + 1 / 2) * 2 ^ e := by
    rcases hhi with h | ⟨-, h⟩ <;> linarith
  have hmq : (1 : ℚ) ≤ mant := by exact_mod_cast hm
  have hN : 0 < N := by
    have hpos : (0 : ℚ) < N / D := by nlinarith
    by_contra h
    rw [Nat.eq_zero_of_not_pos h] at hpos
    simp at hpos
  obtain ⟨e', hu, heq⟩ := ofRatio_eq_encode hN hD
  rw [heq]
  have hm53q : (mant : ℚ) + 1 / 2 < 2 ^ (53 : ℤ) := by
    have : (mant : ℚ) + 1 ≤ 2 ^ (53 : ℤ) := by exact_mod_cast (by omega : mant + 1 ≤ 2 ^ 53)
    linarith
  by_cases hA : (2 : ℚ) ^ (52 + e) ≤ N / D ∨ e = -1074
  · -- the ratio lies in the binade of `x`, where its significand rounds to `mant`
    have hue : UnitExp (N / D : ℚ) e := by
      refine ⟨hlo_e, ?_, hA.symm⟩
      rw [zpow_add₀ two_ne_zero]
      nlinarith
    obtain rfl : e' = e := le_antisymm (hu.le_of_le hue le_rfl) (hue.le_of_le hu le_rfl)
    rcases hs : scaledDivMod N D e' with ⟨q, r, d⟩
    obtain ⟨hd, hr, hqr⟩ := scaledDivMod_spec hD hs
    have hround : roundAt N D e' = mant := by
      simp only [roundAt, hs]
      refine roundHalfEven_eq_of_near hd hr hqr ?_ ?_
      · -- the lower end is a half below `mant`, or higher
        rcases hlowQ.lt_or_eq with hq | hq
        · left
          rw [lt_div_iff₀ h2e]
          exact (mul_lt_mul_of_pos_right hq h2e).trans_le hr_lo
        · rw [← hq] at hlo
          rcases hlo with h | ⟨heven, h⟩
          · left
            rwa [lt_div_iff₀ h2e]
          · right
            refine ⟨heven, ?_⟩
            rw [← h, mul_div_cancel_right₀ _ h2e.ne']
      · rcases hhi with h | ⟨heven, h⟩
        · left
          rwa [div_lt_iff₀ h2e]
        · right
          refine ⟨heven, ?_⟩
          rw [h, mul_div_cancel_right₀ _ h2e.ne']
    rw [hround]
    exact encode_eq_of_word hword hwlt
  · -- below the binade of `x`: `x` is the least number of its binade, a quarter above
    rw [not_or, not_le] at hA
    obtain ⟨hbelow, he⟩ := hA
    have hmant : mant = Nat.pow 2 52 := by
      rcases hnorm with h | h
      · by_contra hne
        have h' : (2 : ℚ) ^ (52 : ℤ) + 1 ≤ mant := by
          exact_mod_cast (by rw [Nat.pow_eq] at hne; omega : 2 ^ 52 + 1 ≤ mant)
        rw [zpow_add₀ two_ne_zero] at hbelow
        nlinarith
      · exact absurd h he
    subst hmant
    have he' : -1074 < e := lt_of_le_of_ne hlo_e (Ne.symm he)
    have hquarter : (lowQuarters (Nat.pow 2 52) e : ℚ) / 4 = 2 ^ (52 : ℤ) - 1 / 4 := by
      have h₁ : 1 ≤ 4 * Nat.pow 2 52 := by norm_num [Nat.pow_eq]
      simp only [lowQuarters, he', decide_true, Bool.and_true, if_true]
      push_cast [Nat.cast_sub h₁, Nat.pow_eq]
      norm_num
    rw [hquarter] at hr_lo hlo
    -- the ratio lies in the binade below, at least `2^53 - 1/2` in its units
    have hue : UnitExp (N / D : ℚ) (e - 1) := by
      refine ⟨by omega, by rwa [show (53 : ℤ) + (e - 1) = 52 + e by ring], .inr ?_⟩
      rw [show (52 : ℤ) + (e - 1) = 51 + e by ring, zpow_add₀ two_ne_zero]
      have : (2 : ℚ) ^ (51 : ℤ) ≤ 2 ^ (52 : ℤ) - 1 / 4 := by norm_num
      nlinarith
    obtain rfl : e' = e - 1 := le_antisymm (hu.le_of_le hue le_rfl) (hue.le_of_le hu le_rfl)
    have h2e' : (2 : ℚ) ^ (e - 1) * 2 = 2 ^ e := by
      rw [zpow_sub_one₀ two_ne_zero]
      field_simp
    rcases hs : scaledDivMod N D (e - 1) with ⟨q, r, d⟩
    obtain ⟨hd, hr, hqr⟩ := scaledDivMod_spec hD hs
    have hround : roundAt N D (e - 1) = Nat.pow 2 53 := by
      simp only [roundAt, hs]
      have h2e₁ : (0 : ℚ) < 2 ^ (e - 1) := zpow_pos (by norm_num) _
      refine roundHalfEven_eq_of_near hd hr hqr ?_ (.inl ?_)
      · -- the lower end is `2^53 - 1/2` units of `2^(e-1)`, included: the significand is even
        rcases hlo with h | ⟨-, h⟩
        · left
          rw [lt_div_iff₀ h2e₁]
          push_cast [Nat.pow_eq]
          rw [← h2e'] at h
          linarith
        · right
          refine ⟨by norm_num [Nat.pow_eq], ?_⟩
          rw [← h, ← h2e', div_eq_iff h2e₁.ne']
          push_cast [Nat.pow_eq]
          ring
      · rw [div_lt_iff₀ h2e₁]
        push_cast [Nat.pow_eq]
        rw [show (52 : ℤ) + e = 53 + (e - 1) by ring, zpow_add₀ two_ne_zero] at hbelow
        linarith
    rw [hround]
    refine encode_eq_of_word ?_ hwlt
    rw [← hword, show e - 1 + 1074 = (e + 1074) - 1 by ring]
    have : (e + 1074).toNat = ((e + 1074) - 1).toNat + 1 := by omega
    rw [this, Nat.pow_eq, Nat.pow_eq]
    ring

/-! ## Reading a decimal in range -/

/-- `decimalWidth` counts the decimal digits. -/
theorem decimalWidth_eq_length_digits (n : ℕ) : decimalWidth n = (Nat.digits 10 n).length := by
  induction n using Nat.strong_induction_on with
  | _ n ih =>
    rw [decimalWidth.eq_1 n]
    split_ifs with h
    · simp [h]
    · rw [ih (n / 10) (by omega), Nat.digits_def' (by norm_num) (show 0 < n by omega), List.length_cons]

/-- A positive number of `k` digits lies in `[10^(k-1), 10^k)`, written without a subtraction. -/
theorem decimalWidth_bounds {n : ℕ} (hn : 0 < n) :
    n < 10 ^ decimalWidth n ∧ 10 ^ decimalWidth n ≤ 10 * n := by
  rw [decimalWidth_eq_length_digits]
  exact ⟨Nat.lt_base_pow_length_digits (by norm_num),
    Nat.base_pow_length_digits_le 10 n (by norm_num) hn.ne'⟩

/-- A decimal `M · 10^E` of value between `10^-325` and `10^310` is that value, correctly rounded:
the shortcuts of `ofDecimal` for values past either end are not taken. -/
theorem ofDecimal_eq_ofRatio {M : ℕ} {E : ℤ} (hM : 0 < M)
    (hlo : (10 : ℚ) ^ (-325 : ℤ) ≤ M * 10 ^ E) (hhi : (M : ℚ) * 10 ^ E < 10 ^ (310 : ℤ)) :
    ∃ N D : ℕ, 0 < D ∧ (N / D : ℚ) = M * 10 ^ E ∧ ofDecimal M E = ofRatio N D := by
  obtain ⟨hk₁, hk₂⟩ := decimalWidth_bounds hM
  set k := decimalWidth M
  have hk₁' : (M : ℚ) < 10 ^ (k : ℤ) := by exact_mod_cast hk₁
  have hk₂' : (10 : ℚ) ^ (k : ℤ) ≤ 10 * M := by exact_mod_cast hk₂
  have h10E : (0 : ℚ) < 10 ^ E := zpow_pos (by norm_num) E
  have hsplit : (10 : ℚ) ^ ((k : ℤ) + E) = 10 ^ (k : ℤ) * 10 ^ E := zpow_add₀ (by norm_num) _ _
  unfold ofDecimal
  rw [if_neg hM.ne']
  dsimp only
  split_ifs with hbig hsmall hE
  · -- at least `k + E - 1 ≥ 310` leading digits: the value would be `10^310` or more
    have h : (10 : ℚ) ^ (311 : ℤ) ≤ 10 ^ ((k : ℤ) + E) := zpow_le_zpow_right₀ (by norm_num) (by omega)
    have h311 : (10 : ℚ) ^ (311 : ℤ) = 10 * 10 ^ (310 : ℤ) := by
      rw [show (311 : ℤ) = 1 + 310 by norm_num, zpow_add₀ (by norm_num), zpow_one]
    have : (10 : ℚ) * 10 ^ (310 : ℤ) ≤ 10 * (M * 10 ^ E) :=
      calc (10 : ℚ) * 10 ^ (310 : ℤ) ≤ 10 ^ (k : ℤ) * 10 ^ E := by rw [← h311, ← hsplit]; exact h
        _ ≤ 10 * M * 10 ^ E := mul_le_mul_of_nonneg_right hk₂' h10E.le
        _ = 10 * (M * 10 ^ E) := by ring
    linarith
  · -- the value is below `10^(k + E) ≤ 10^-325`
    have h : (10 : ℚ) ^ ((k : ℤ) + E) ≤ 10 ^ (-325 : ℤ) := zpow_le_zpow_right₀ (by norm_num) (by omega)
    have : (M : ℚ) * 10 ^ E < 10 ^ ((k : ℤ) + E) := hsplit ▸ mul_lt_mul_of_pos_right hk₁' h10E
    linarith
  · refine ⟨M * Nat.pow 10 E.toNat, 1, Nat.one_pos, ?_, rfl⟩
    rw [Nat.cast_one, div_one, Nat.cast_mul, Scaled.natCast_pow, Nat.cast_ofNat, ← zpow_natCast,
      Int.toNat_of_nonneg hE]
  · refine ⟨M, Nat.pow 10 (-E).toNat, Nat.pow_pos (by norm_num), ?_, rfl⟩
    rw [Scaled.natCast_pow, Nat.cast_ofNat, ← zpow_natCast, Int.toNat_of_nonneg (by omega),
      zpow_neg, div_eq_mul_inv, inv_inv]

/-! ## Shortest texts read back -/

theorem ten_zpow_le_two_zpow : (10 : ℚ) ^ (-325 : ℤ) ≤ 2 ^ (-1075 : ℤ) := by
  rw [zpow_neg, zpow_neg, inv_le_inv₀ (by positivity) (by positivity)]
  exact_mod_cast (by decide +kernel : (2 : ℕ) ^ 1075 ≤ 10 ^ 325)

theorem two_zpow_lt_ten_zpow : (2 : ℚ) ^ (1024 : ℤ) < 10 ^ (310 : ℤ) := by
  exact_mod_cast (by decide +kernel : (2 : ℕ) ^ 1024 < 10 ^ 310)

/-- The value of a positive finite number's rounding interval lies between half the least
subnormal and `2^1024`. -/
theorem interval_in_range {x : Binary64} {mant : ℕ} {e : ℤ} (hx : x.classify = .finite false mant e)
    (hm : 0 < mant) :
    (2 : ℚ) ^ (-1075 : ℤ) ≤ lowQuarters mant e / 4 * 2 ^ e ∧
      ((mant : ℚ) + 1 / 2) * 2 ^ e < 2 ^ (1024 : ℤ) := by
  obtain ⟨hm53, hlo_e, hhi_e, -⟩ := classify_finite_bounds hx
  have h2e : (0 : ℚ) < 2 ^ e := zpow_pos (by norm_num) e
  have hm₁ : (1 : ℚ) ≤ mant := by exact_mod_cast hm
  have hm₂ : (mant : ℚ) + 1 / 2 < 2 ^ (53 : ℤ) := by
    have : mant + 1 ≤ 2 ^ 53 := hm53
    have : (mant : ℚ) + 1 ≤ 2 ^ 53 := by exact_mod_cast this
    have h53 : (2 : ℚ) ^ (53 : ℤ) = 2 ^ 53 := by norm_num
    linarith
  constructor
  · calc (2 : ℚ) ^ (-1075 : ℤ) = 1 / 2 * 2 ^ (-1074 : ℤ) := by
          rw [show (-1075 : ℤ) = -1 + -1074 by norm_num, zpow_add₀ two_ne_zero, zpow_neg_one, one_div]
      _ ≤ 1 / 2 * 2 ^ e := by gcongr; norm_num
      _ ≤ ((mant : ℚ) - 1 / 2) * 2 ^ e := by gcongr; linarith
      _ ≤ lowQuarters mant e / 4 * 2 ^ e := by gcongr; exact lowQuarters_ge hm e
  · calc ((mant : ℚ) + 1 / 2) * 2 ^ e < 2 ^ (53 : ℤ) * 2 ^ e := mul_lt_mul_of_pos_right hm₂ h2e
      _ ≤ 2 ^ (53 : ℤ) * 2 ^ (971 : ℤ) := by gcongr; norm_num
      _ = 2 ^ (1024 : ℤ) := by rw [← zpow_add₀ two_ne_zero]; norm_num

/-- The shortest digits of a positive finite number read back as that number: their value lies in
the number's rounding interval, well inside the range where `ofDecimal` rounds. -/
theorem read?_positional_shortest {x : Binary64} {mant : ℕ} {e : ℤ}
    (hx : x.classify = .finite false mant e) (hm : 0 < mant) :
    read? (positional (shortest mant e).1 (shortest mant e).2) = some x := by
  obtain ⟨M, E, hread, hval⟩ := read?_positional (shortest mant e).1 (shortest mant e).2
  obtain ⟨hin_lo, hin_hi⟩ := inside_of_inInterval (shortest_inside hx hm)
  have hc : (⟨(shortest mant e).1, 0, (shortest mant e).2⟩ : Scaled).val = M * 10 ^ E := by
    rw [hval, Scaled.val, zpow_zero, mul_one]
  rw [val_low, hc] at hin_lo
  rw [val_high, hc] at hin_hi
  obtain ⟨hlow, hhigh⟩ := interval_in_range hx hm
  have hge : (2 : ℚ) ^ (-1075 : ℤ) ≤ M * 10 ^ E := by
    rcases hin_lo with h | ⟨-, h⟩ <;> linarith
  have hlt : (M : ℚ) * 10 ^ E < 2 ^ (1024 : ℤ) := by
    rcases hin_hi with h | ⟨-, h⟩ <;> linarith
  have hM : 0 < M := by
    rcases Nat.eq_zero_or_pos M with h | h
    · rw [h, Nat.cast_zero, zero_mul] at hge
      exact absurd hge (not_le.2 (zpow_pos (by norm_num) _))
    · exact h
  obtain ⟨N, D, hD, hND, hdec⟩ :=
    ofDecimal_eq_ofRatio hM (le_trans ten_zpow_le_two_zpow hge) (hlt.trans two_zpow_lt_ten_zpow)
  rw [← hND] at hin_lo hin_hi
  rw [hread, hdec, ofRatio_eq_of_inside hx hm hD]
  · rcases hin_lo with h | ⟨hc, h⟩
    · exact .inl h
    · exact .inr ⟨beq_iff_eq.1 hc, h⟩
  · rcases hin_hi with h | ⟨hc, h⟩
    · exact .inl h
    · exact .inr ⟨beq_iff_eq.1 hc, h⟩

/-! ## Signs -/

/-- A pattern is its sign bit, exponent field and fraction field. -/
theorem word_eq_fields (x : Binary64) :
    x.word = (if x.sign then Nat.pow 2 63 else 0) + x.expField * Nat.pow 2 52 + x.fraction := by
  have hx := word_lt x
  unfold sign expField fraction
  by_cases h : Nat.pow 2 63 ≤ x.word
  · rw [if_pos (decide_eq_true h)]
    simp only [Nat.pow_eq] at hx h ⊢
    omega
  · rw [if_neg (by simpa using h)]
    simp only [Nat.pow_eq] at hx h ⊢
    omega

theorem word_withSign (s : Bool) (x : Binary64) :
    (withSign s x).word = (if s then Nat.pow 2 63 else 0) + x.word % Nat.pow 2 63 := by
  have h : x.word % Nat.pow 2 63 < Nat.pow 2 63 := Nat.mod_lt _ (Nat.two_pow_pos 63)
  unfold withSign
  split_ifs
  · rw [word_ofWord (by simp only [Nat.pow_eq] at h ⊢; omega)]
    omega
  · rw [word_ofWord (by simp only [Nat.pow_eq] at h ⊢; omega)]
    omega

@[simp]
theorem sign_withSign (s : Bool) (x : Binary64) : (withSign s x).sign = s := by
  have h : x.word % Nat.pow 2 63 < Nat.pow 2 63 := Nat.mod_lt _ (Nat.two_pow_pos 63)
  unfold sign
  rw [word_withSign]
  cases s
  · simp only [Bool.false_eq_true, if_false, Nat.zero_add, decide_eq_false_iff_not, not_le]
    exact h
  · simp only [if_true, decide_eq_true_eq]
    omega

@[simp]
theorem expField_withSign (s : Bool) (x : Binary64) : (withSign s x).expField = x.expField := by
  simp only [expField, word_withSign, Nat.pow_eq]
  split <;> omega

@[simp]
theorem fraction_withSign (s : Bool) (x : Binary64) : (withSign s x).fraction = x.fraction := by
  simp only [fraction, word_withSign, Nat.pow_eq]
  split <;> omega

/-- Setting the sign of a finite number keeps its magnitude. -/
theorem classify_withSign {x : Binary64} {neg : Bool} {m : ℕ} {k : ℤ}
    (h : x.classify = .finite neg m k) (s : Bool) : (withSign s x).classify = .finite s m k := by
  unfold classify at h ⊢
  rw [expField_withSign, fraction_withSign, sign_withSign]
  split_ifs at h ⊢ <;> simp_all

/-- A number is its magnitude with its own sign. -/
theorem withSign_withSign_false {x : Binary64} {s : Bool} (h : x.sign = s) :
    withSign s (withSign false x) = x := by
  apply ext_word
  have hx := word_lt x
  rw [word_withSign, word_withSign]
  simp only [sign, Nat.pow_eq] at h hx ⊢
  cases s <;> simp at h ⊢ <;> omega

/-! ## Texts read back -/

/-- A minus sign in front of a text that starts with a digit sets the sign bit of what it reads. -/
theorem read?_minus_of_isDigit {t : String} {c : Char} {cs : List Char} (h : t.toList = c :: cs)
    (hc : c.isDigit) : read? ("-" ++ t) = (read? t).map (withSign true) := by
  have hcons : ("-" ++ t).toList = '-' :: c :: cs := by simp [h]
  rw [read?_of_isDigit h hc, ← readMagnitude_of_isDigit cs hc]
  unfold read?
  rw [hcons]
  rfl

/-- A positional text starts with a digit. -/
theorem positional_head (d : ℕ) (s : ℤ) :
    ∃ c cs, (positional d s).toList = c :: cs ∧ c.isDigit := by
  obtain ⟨a, f, ha, hda, -, hshape⟩ := positional_shape d s
  obtain ⟨c, cs, rfl⟩ := List.exists_cons_of_ne_nil ha
  rcases hshape with ⟨h, -⟩ | ⟨h, -⟩
  · exact ⟨c, cs, h, hda c (.head _)⟩
  · exact ⟨c, cs ++ '.' :: f, h, hda c (.head _)⟩

/-- Every number other than a NaN reads back from its shortest text: the digits of a finite
number lie in its rounding interval, a minus sign sets the sign bit back, and the zeros and
infinities are read from their words. -/
theorem read?_plainText {x : Binary64} (hx : x.isNaN = false) : read? (plainText x) = some x := by
  have hword := word_eq_fields x
  rcases hk : x.classify with _ | neg | ⟨neg, mant, e⟩
  · -- a NaN is excluded
    unfold classify at hk
    split_ifs at hk with h₁ h₂
    simp [isNaN, h₁, h₂] at hx
  · -- an infinity: `inf` or `-inf`
    unfold classify at hk
    split_ifs at hk with h₁ h₂
    obtain rfl : x.sign = neg := by injection hk
    cases hs : x.sign
    · have : x = inf := ext_word (by rw [hword, hs, h₁, h₂]; decide)
      subst this
      decide +kernel
    · have : x = negInf := ext_word (by rw [hword, hs, h₁, h₂]; decide)
      subst this
      decide +kernel
  · obtain ⟨-, hsign, hfields⟩ := classify_eq_finite hk
    rcases Nat.eq_zero_or_pos mant with rfl | hm
    · -- a zero: `0` or `-0`
      have hzero : x.expField = 0 ∧ x.fraction = 0 := by
        rcases hfields with ⟨h₁, h₂, -⟩ | ⟨-, h₂, -⟩
        · exact ⟨h₁, h₂.symm⟩
        · simp [Nat.pow_eq] at h₂
      cases hs : x.sign
      · have : x = zero := ext_word (by rw [hword, hs, hzero.1, hzero.2]; decide)
        subst this
        decide +kernel
      · have : x = negZero := ext_word (by rw [hword, hs, hzero.1, hzero.2]; decide)
        subst this
        decide +kernel
    · -- a nonzero finite number: its sign and its shortest digits
      have htext : plainText x =
          (if neg then "-" else "") ++ positional (shortest mant e).1 (shortest mant e).2 := by
        simp [plainText, decimal?, hk, hm.ne']
      have hread := read?_positional_shortest (classify_withSign hk false) hm
      rw [htext]
      cases neg
      · simpa using read?_positional_shortest hk hm
      · obtain ⟨c, cs, hcs, hc⟩ := positional_head (shortest mant e).1 (shortest mant e).2
        rw [if_pos rfl, read?_minus_of_isDigit hcs hc, hread, Option.map_some,
          withSign_withSign_false hsign.symm]

end ClusterSweep.Binary64

namespace ClusterSweep.Latency

open ClusterSweep.Text ClusterSweep.Binary64

/-! ## Latency files of any samples -/

/-- A shortest text holds no blank, comma or line break. -/
theorem plainText_tokenChar (x : Binary64) : ∀ ch ∈ (plainText x).toList, TokenChar ch := by
  unfold plainText
  split
  · intro ch hch
    rw [String.toList_append] at hch
    rcases List.mem_append.1 hch with h | h
    · split at h
      · have hminus : ch = '-' := by simpa using h
        rw [hminus]
        decide
      · simp at h
    · exact positional_tokenChar _ _ ch h
  · -- `NaN`, `-inf` or `inf`
    intro ch hch
    have hletters : (specialText x).toList ⊆ ['N', 'a', '-', 'i', 'n', 'f'] := by
      unfold specialText
      split_ifs <;> simp
    have h := hletters hch
    simp only [List.mem_cons, List.not_mem_nil, or_false] at h
    rcases h with rfl | rfl | rfl | rfl | rfl | rfl <;> decide

theorem plainText_ne_empty (x : Binary64) : plainText x ≠ "" := by
  unfold plainText
  split
  · intro h
    exact positional_ne_empty _ _ (String.append_eq_empty_iff.1 h).2
  · unfold specialText
    split_ifs <;> decide

/-- Lines of shortest texts, numbered from `n`, read back as their numbers. -/
theorem samplesFrom_plainText (path : String) : ∀ (xs : List Binary64) (n : ℕ),
    (∀ x ∈ xs, x.isNaN = false) → samplesFrom path n (xs.map fun x => some (plainText x)) = .ok xs
  | [], _, _ => rfl
  | x :: xs, n, h => by
    have hx := h x (.head _)
    simp only [List.map_cons, samplesFrom,
      lineSamples_token (plainText_ne_empty x) (plainText_tokenChar x) (read?_plainText hx) hx,
      samplesFrom_plainText path xs (n + 1) fun y hy => h y (.tail _ hy)]
    rfl

/-- A latency file written from samples that are no NaN reads back as those samples, in order. -/
theorem parseSamples_samplesText (path : String) {xs : List Binary64}
    (hxs : ∀ x ∈ xs, x.isNaN = false) :
    parseSamples path (Simulation.samplesText xs).toUTF8 = .ok xs := by
  have htext : Simulation.samplesText xs = String.join ((xs.map plainText).map (· ++ "\n")) := by
    simp [Simulation.samplesText, List.map_map, Function.comp_def]
  have hlines : ∀ l ∈ xs.map plainText, ∀ ch ∈ l.toList, LineChar ch := by
    intro l hl ch hch
    obtain ⟨x, -, rfl⟩ := List.mem_map.1 hl
    exact (plainText_tokenChar x ch hch).lineChar
  rw [parseSamples, htext, decodeLines_join hlines, List.map_map]
  exact samplesFrom_plainText path xs 1 hxs

end ClusterSweep.Latency
