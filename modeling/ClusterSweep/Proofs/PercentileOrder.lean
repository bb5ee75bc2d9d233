import Mathlib
import ClusterSweep.Proofs.PercentileTable

/-!
# Percentile tables are monotone

A percentile table is a cumulative distribution read at fixed fractions: along its points the
fraction strictly grows, from the origin's `0` to the greatest sample's `1`, and from the least
sample on the values never decrease.  The origin `(0, 0)` is not a sample: it lies below the
rest of the value column exactly when the least sample is not below zero
(`ofSamples_monotone`).

The values after the origin grow for two reasons.  The positions `⌊n · num / den⌋` read from the
sorted samples grow with the level `num / den`, so along the tail points the values grow with
the fractions (`tailPoints_pairwise_value`).  The least sample's point at `1/n` is sorted in among
them, and a tail point sorted before it has a level whose fraction lies below `1/n`: up to `100`
samples its position is then `0` and its value the least sample
(`position_eq_zero_of_lt_minFraction`), and past `100` samples no level lies below `1/n`.

Comparisons of values are the arithmetic ones of IEEE (`Binary64.le`, `Binary64.lt`), under which
the two zeros are equal; on samples that are no NaN they follow the total order the samples are
sorted by (`Binary64.le_of_totalLe`).
-/

namespace ClusterSweep

namespace Binary64

/-- On numbers that are no NaN, the total order implies the arithmetic `≤`. -/
theorem le_of_totalLe {x y : Binary64} (hx : x.isNaN = false) (hy : y.isNaN = false)
    (h : totalLe x y = true) : le x y = true := by
  simp only [totalLe, decide_eq_true_eq] at h
  simp [le, hx, hy, h]

/-- A number at or above, in the total order, one that is not below zero is not below zero:
above `-0` the total order only meets `-0` itself, which equals zero. -/
theorem le_zero_of_totalLe {x y : Binary64} (hx : le zero x = true) (hxy : totalLe x y = true)
    (hy : y.isNaN = false) : le zero y = true := by
  have hwx := word_lt x
  have hwy := word_lt y
  have hz : zero.isZero = true := by decide
  have hzn : zero.isNaN = false := by decide
  have hzk : zero.orderKey = Nat.pow 2 63 := by decide
  have h63 : Nat.pow 2 63 = 9223372036854775808 := rfl
  have h64 : Nat.pow 2 64 = 18446744073709551616 := rfl
  simp only [le, totalLe, hz, hzn, hzk, hy] at hx hxy ⊢
  simp only [isZero, orderKey, sign, h63, h64, Bool.and_eq_true, Bool.or_eq_true,
    Bool.not_eq_true', beq_iff_eq, decide_eq_true_eq, Bool.not_false, Bool.true_and]
    at hx hxy hwx hwy ⊢
  split_ifs at hx hxy ⊢ <;> omega

/-- Finite non-negative patterns in increasing order are increasing for the arithmetic `<`. -/
theorem lt_of_word_lt {x y : Binary64} (hx : x.word ≤ 0x7FF0000000000000)
    (hy : y.word ≤ 0x7FF0000000000000) (h : x.word < y.word) : lt x y = true := by
  have hcap : (0x7FF0000000000000 : ℕ) < Nat.pow 2 63 := by decide
  have h63 : Nat.pow 2 63 = 9223372036854775808 := rfl
  -- `y` lies strictly between `+0` and the sign bit, so it is no zero
  have hyz : y.isZero = false := by
    simp only [isZero, h63, beq_eq_false_iff_ne]
    omega
  simp only [lt, isNaN_eq_false_of_word_le hx, isNaN_eq_false_of_word_le hy, hyz,
    orderKey_of_word_lt (hx.trans_lt hcap), orderKey_of_word_lt (hy.trans_lt hcap),
    Bool.not_false, Bool.and_false, Bool.not_false, Bool.true_and, decide_eq_true_eq]
  omega

end Binary64

namespace Latency

open Binary64 PercentileTable

/-! ## Reading the sorted samples -/

section Sorted

variable {l : List Binary64}

/-- A capped position of non-empty samples is a position of the list. -/
theorem sampleAt_eq_get (hpos : 0 < l.length) (k : ℕ) :
    sampleAt l.toArray k = l.get ⟨min k (l.length - 1), by omega⟩ := by
  have hk : min k (l.length - 1) < l.length := by omega
  simp [sampleAt, Array.getD, hk]

theorem sampleAt_mem (hpos : 0 < l.length) (k : ℕ) : sampleAt l.toArray k ∈ l := by
  rw [sampleAt_eq_get hpos]
  exact List.get_mem _ _

/-- Reading sorted samples further along never gives a smaller one. -/
theorem sampleAt_mono (hl : l.Pairwise (totalLe · · = true)) {i j : ℕ} (h : i ≤ j) :
    totalLe (sampleAt l.toArray i) (sampleAt l.toArray j) = true := by
  rcases Nat.eq_zero_or_pos l.length with h0 | hpos
  · -- no samples: both positions read the default
    rw [List.length_eq_zero_iff.1 h0]
    exact totalLe_refl _
  · rw [sampleAt_eq_get hpos, sampleAt_eq_get hpos]
    rcases Nat.lt_or_eq_of_le (min_le_min_right (l.length - 1) h) with hlt | heq
    · exact List.pairwise_iff_get.1 hl _ _ hlt
    · simp only [heq]
      exact totalLe_refl _

end Sorted

/-! ## Positions of the levels -/

/-- The levels grow: each `num / den` is at most the next, cross-multiplied. -/
theorem percentileLevels_pairwise_le :
    percentileLevels.Pairwise (fun a b => a.2.1 * b.2.2 ≤ b.2.1 * a.2.2) := by
  decide

/-- The position `⌊n · a / b⌋` grows with the ratio `a / b`. -/
theorem mul_div_le_mul_div {n a b c d : ℕ} (hb : 0 < b) (hd : 0 < d) (h : a * d ≤ c * b) :
    n * a / b ≤ n * c / d := by
  rw [Nat.le_div_iff_mul_le hd]
  refine Nat.le_of_mul_le_mul_right ?_ hb
  calc n * a / b * d * b = n * a / b * b * d := by ring
    _ ≤ n * a * d := Nat.mul_le_mul_right d (Nat.div_mul_le_self _ _)
    _ = n * (a * d) := by ring
    _ ≤ n * (c * b) := Nat.mul_le_mul_left n h
    _ = n * c * b := by ring

/-- A level below `1` reads a position before the last. -/
theorem mul_div_le_pred {n a b : ℕ} (h : a < b) : n * a / b ≤ n - 1 := by
  rcases Nat.eq_zero_or_pos n with rfl | hn
  · simp
  · have : n * a / b < n :=
      Nat.div_lt_of_lt_mul (by rw [Nat.mul_comm b]; exact Nat.mul_lt_mul_of_pos_left h hn)
    omega

/-- Along the tail points of sorted samples the values never decrease. -/
theorem tailPoints_pairwise_value {l : List Binary64} (hl : l.Pairwise (totalLe · · = true)) :
    (tailPoints l.toArray).Pairwise (fun p q => totalLe p.value q.value = true) := by
  simp only [tailPoints, List.pairwise_append, List.pairwise_map, List.mem_map,
    List.mem_singleton, List.pairwise_singleton, true_and]
  refine ⟨percentileLevels_pairwise_le.imp_of_mem fun ha hb h => ?_, ?_⟩
  · exact sampleAt_mono hl (mul_div_le_mul_div (Nat.zero_lt_of_lt (percentileLevels_lt _ ha))
      (Nat.zero_lt_of_lt (percentileLevels_lt _ hb)) h)
  · rintro _ ⟨lv, hlv, rfl⟩ _ rfl
    exact sampleAt_mono hl (mul_div_le_pred (percentileLevels_lt lv hlv))

/-- A tail point is a level's sample at its fraction, or the greatest sample at `1`. -/
theorem mem_tailPoints_cases {s : Array Binary64} {p : PercentilePoint} (hp : p ∈ tailPoints s) :
    (∃ lv ∈ percentileLevels, p = ⟨sampleAt s (s.size * lv.2.1 / lv.2.2), lv.1⟩) ∨
      p = ⟨sampleAt s (s.size - 1), one⟩ := by
  simp only [tailPoints, List.mem_append, List.mem_map, List.mem_singleton] at hp
  rcases hp with ⟨lv, hlv, rfl⟩ | rfl
  · exact Or.inl ⟨lv, hlv, rfl⟩
  · exact Or.inr rfl

/-! ## Where `1/n` falls among the levels -/

/-- Every level's fraction lies below `1`. -/
theorem levelFraction_lt_one {lv : Binary64 × ℕ × ℕ} (hlv : lv ∈ percentileLevels) :
    lv.1.word < one.word :=
  (List.pairwise_append.1 tailFractions_pairwise).2.2 lv.1 (List.mem_map_of_mem hlv) one
    (List.mem_singleton_self one)

set_option maxRecDepth 10000 in
/-- Up to `100` samples, `1/n` is at most `1`. -/
theorem minFraction_le_one_of_le_hundred : ∀ n < 101, 0 < n → (minFraction n).word ≤ one.word := by
  decide +kernel

/-- For every count of samples, `1/n` is at most `1`. -/
theorem minFraction_le_one {n : ℕ} (h : 0 < n) (hn : n ≤ u64Max) :
    (minFraction n).word ≤ one.word := by
  rcases Nat.lt_or_ge n 101 with hsmall | hbig
  · exact minFraction_le_one_of_le_hundred n hsmall h
  · have hle := (minFraction_between hbig hn).2
    have h101 : (ofRatio 1 101).word ≤ one.word := by decide
    omega

set_option maxRecDepth 10000 in
/-- Up to `100` samples, a level whose fraction lies below `1/n` reads position `0`. -/
theorem position_eq_zero_of_le_hundred : ∀ n < 101, 0 < n → ∀ lv ∈ percentileLevels,
    lv.1.word < (minFraction n).word → n * lv.2.1 / lv.2.2 = 0 := by
  decide +kernel

/-- A level whose fraction lies below `1/n` reads the least sample: up to `100` samples its
position is `0`, and past that no level's fraction lies below `1/n`. -/
theorem position_eq_zero_of_lt_minFraction {n : ℕ} (h : 0 < n) (hn : n ≤ u64Max)
    {lv : Binary64 × ℕ × ℕ} (hlv : lv ∈ percentileLevels) (hlt : lv.1.word < (minFraction n).word) :
    n * lv.2.1 / lv.2.2 = 0 := by
  rcases Nat.lt_or_ge n 101 with hsmall | hbig
  · exact position_eq_zero_of_le_hundred n hsmall h lv hlv hlt
  · have hle := (minFraction_between hbig hn).2
    have hbelow : (ofRatio 1 101).word < (div (ofNat 1) (ofNat 100)).word := by decide
    have hlevel := (tailFractions_bounds lv.1 (List.mem_append_left _ (List.mem_map_of_mem hlv))).1
    omega

/-! ## The points after the origin -/

/-- The points of a table after the origin: the least sample at `1/n`, and the tail points whose
fraction is not `1/n`. -/
def AfterOrigin (s : Array Binary64) (p : PercentilePoint) : Prop :=
  p = ⟨sampleAt s 0, minFraction s.size⟩ ∨ (p ∈ tailPoints s ∧ p.fraction ≠ minFraction s.size)

/-- Every point after the origin holds a sample read at some position. -/
theorem AfterOrigin.exists_sampleAt {s : Array Binary64} {p : PercentilePoint}
    (hp : AfterOrigin s p) : ∃ k, p.value = sampleAt s k := by
  rcases hp with rfl | ⟨hp, -⟩
  · exact ⟨0, rfl⟩
  · rcases mem_tailPoints_cases hp with ⟨lv, -, rfl⟩ | rfl
    · exact ⟨_, rfl⟩
    · exact ⟨_, rfl⟩

/-- In a list increasing by `f` along which `R` holds, `R` relates each member to every member of
larger `f`. -/
theorem rel_of_pairwise_of_lt {α : Type} {f : α → ℕ} {R : α → α → Prop} :
    ∀ {l : List α}, l.Pairwise (fun a b => f a < f b ∧ R a b) →
      ∀ {a b : α}, a ∈ l → b ∈ l → f a < f b → R a b
  | [], _, _, _, ha, _, _ => nomatch ha
  | x :: l, h, a, b, ha, hb, hlt => by
    obtain ⟨hx, hl⟩ := List.pairwise_cons.1 h
    rcases List.mem_cons.1 ha with rfl | ha' <;> rcases List.mem_cons.1 hb with rfl | hb'
    · exact absurd hlt (lt_irrefl _)
    · exact (hx b hb').2
    · exact absurd (hx a ha').1 (not_lt.2 hlt.le)
    · exact rel_of_pairwise_of_lt hl ha' hb' hlt

section Table

variable {l : List Binary64} (hl : l.Pairwise (totalLe · · = true)) (hpos : 0 < l.length)
  (hmax : l.length ≤ u64Max)
include hl hpos hmax

/-- Of two points after the origin, the one of smaller fraction holds the smaller value. -/
theorem value_le_of_fraction_lt {p q : PercentilePoint} (hp : AfterOrigin l.toArray p)
    (hq : AfterOrigin l.toArray q) (hlt : p.fraction.word < q.fraction.word) :
    totalLe p.value q.value = true := by
  have hsize : l.toArray.size = l.length := List.size_toArray
  rcases hp with rfl | ⟨hpT, hpm⟩
  · -- the least sample is below every sample read
    obtain ⟨k, hk⟩ := hq.exists_sampleAt
    rw [hk]
    exact sampleAt_mono hl (Nat.zero_le k)
  · rcases hq with rfl | ⟨hqT, -⟩
    · -- a tail point sorted before `1/n` is a level below `1/n`, read at position `0`
      rcases mem_tailPoints_cases hpT with ⟨lv, hlv, rfl⟩ | rfl
      · rw [hsize] at hlt ⊢
        rw [position_eq_zero_of_lt_minFraction hpos hmax hlv hlt]
        exact totalLe_refl _
      · rw [hsize] at hlt
        exact absurd (minFraction_le_one hpos hmax) (not_le.2 hlt)
    · -- two tail points: values grow with fractions along the tail
      exact rel_of_pairwise_of_lt ((tailPoints_pairwise l.toArray).and
        (tailPoints_pairwise_value hl)) hpT hqT hlt

/-- Points after the origin, by increasing fraction, hold samples that never decrease. -/
theorem values_pairwise_le {rest : List PercentilePoint} (hnan : ∀ x ∈ l, x.isNaN = false)
    (hrest : rest.Pairwise (fun p q => p.fraction.word < q.fraction.word))
    (hafter : ∀ p ∈ rest, AfterOrigin l.toArray p) :
    (rest.map (·.value)).Pairwise (fun a b => le a b = true) := by
  -- every value read is a sample, hence no NaN
  have hval : ∀ p ∈ rest, p.value.isNaN = false := fun p hp => by
    obtain ⟨k, hk⟩ := (hafter p hp).exists_sampleAt
    rw [hk]
    exact hnan _ (sampleAt_mem hpos k)
  rw [List.pairwise_map]
  exact hrest.imp_of_mem fun hp hq h => le_of_totalLe (hval _ hp) (hval _ hq)
    (value_le_of_fraction_lt hl hpos hmax (hafter _ hp) (hafter _ hq) h)

omit hmax in
/-- The origin's `+0` lies below every value after it exactly when it lies below the least
sample, which is one of them. -/
theorem origin_le_iff {rest : List PercentilePoint} (hnan : ∀ x ∈ l, x.isNaN = false)
    (hafter : ∀ p ∈ rest, AfterOrigin l.toArray p)
    (hmin : ⟨sampleAt l.toArray 0, minFraction l.toArray.size⟩ ∈ rest) :
    (∀ b ∈ rest.map (·.value), le zero b = true) ↔ le zero (sampleAt l.toArray 0) = true := by
  constructor
  · intro h
    exact h _ (List.mem_map_of_mem hmin)
  · intro hz b hb
    obtain ⟨p, hp, rfl⟩ := List.mem_map.1 hb
    obtain ⟨k, hk⟩ := (hafter p hp).exists_sampleAt
    rw [hk]
    exact le_zero_of_totalLe hz (sampleAt_mono hl (Nat.zero_le k)) (hnan _ (sampleAt_mem hpos k))

end Table

/-- A point after the origin has a fraction above `0` and at most `1`. -/
theorem AfterOrigin.fraction_pos_le_one {s : Array Binary64} (hpos : 0 < s.size)
    (hmax : s.size ≤ u64Max) {p : PercentilePoint} (hp : AfterOrigin s p) :
    0 < p.fraction.word ∧ p.fraction.word ≤ one.word := by
  rcases hp with rfl | ⟨hpT, -⟩
  · exact ⟨(minFraction_spec hpos hmax).1, minFraction_le_one hpos hmax⟩
  · have h₁ : 0 < (div (ofNat 1) (ofNat 100)).word := by decide
    refine ⟨Nat.lt_of_lt_of_le h₁ (tailPoints_bounds s p hpT).1, ?_⟩
    rcases mem_tailPoints_cases hpT with ⟨lv, hlv, rfl⟩ | rfl
    · exact (levelFraction_lt_one hlv).le
    · exact le_rfl

/-- Fraction `1` is held by a point after the origin: the least sample's when `1/n` is `1`, the
greatest sample's otherwise. -/
theorem exists_afterOrigin_fraction_eq_one (s : Array Binary64) :
    ∃ p, AfterOrigin s p ∧ p.fraction = one := by
  by_cases hm : minFraction s.size = one
  · exact ⟨_, Or.inl rfl, hm⟩
  · exact ⟨⟨sampleAt s (s.size - 1), one⟩,
      Or.inr ⟨List.mem_append_right _ (List.mem_singleton_self _), Ne.symm hm⟩, rfl⟩

/-! ## Lists increasing by a key -/

section Increasing

variable {α : Type} {f : α → ℕ} {L : List α} (h : L.Pairwise (fun a b => f a < f b))
include h

/-- A member of least key heads a list that strictly increases by the key. -/
theorem eq_cons_of_pairwise_lt {a : α} (ha : a ∈ L) (hleast : ∀ b ∈ L, f a ≤ f b) :
    ∃ rest, L = a :: rest := by
  cases L with
  | nil => exact absurd ha List.not_mem_nil
  | cons x rest =>
    refine ⟨rest, ?_⟩
    rcases List.mem_cons.1 ha with rfl | ha'
    · rfl
    · -- `x` precedes `a` and so has a smaller key, below the least
      exact absurd (hleast x List.mem_cons_self) (not_le.2 ((List.pairwise_cons.1 h).1 a ha'))

/-- A member of greatest key ends a list that strictly increases by the key. -/
theorem getLast?_eq_of_pairwise_lt {a : α} (ha : a ∈ L) (hgreatest : ∀ b ∈ L, f b ≤ f a) :
    L.getLast? = some a := by
  have hne : L ≠ [] := List.ne_nil_of_mem ha
  rw [List.getLast?_eq_some_getLast hne, Option.some_inj]
  by_contra hlast
  -- `a` precedes the last member and so has a smaller key, above the greatest
  have hdrop : a ∈ L.dropLast := by
    rw [← List.dropLast_append_getLast hne, List.mem_append, List.mem_singleton] at ha
    exact ha.resolve_right (Ne.symm hlast)
  exact absurd (hgreatest _ (List.getLast_mem hne)) (not_le.2 (h.rel_dropLast_getLast hdrop))

end Increasing

/-! ## The table of a list of samples -/

/-- The points of a percentile table strictly increase by fraction, from the origin `(0, 0)` to
a last point at fraction `1`; the values after the origin never decrease; and the whole column of
values, the origin's included, never decreases exactly when the least sample is not below
zero. -/
theorem ofSamples_monotone (xs : List Binary64) (hne : xs ≠ []) (hlen : xs.length ≤ u64Max)
    (hnan : ∀ x ∈ xs, x.isNaN = false) :
    ∃ t, ofSamples xs = .ok t ∧
      t.points.Pairwise (fun p q => lt p.fraction q.fraction = true) ∧
      t.points.head? = some ⟨zero, zero⟩ ∧
      t.points.getLast?.map (·.fraction) = some one ∧
      (t.points.tail.map (·.value)).Pairwise (fun a b => le a b = true) ∧
      ∃ v, IsLeastSample xs v ∧
        ((t.points.map (·.value)).Pairwise (fun a b => le a b = true) ↔ le zero v = true) := by
  set s := xs.mergeSort totalLe with hs_def
  have hsorted : s.Pairwise (totalLe · · = true) := pairwise_mergeSort_totalLe xs
  have hsize : s.toArray.size = xs.length := by simp [hs_def]
  have hn : 0 < xs.length := List.length_pos_of_ne_nil hne
  have hspos : 0 < s.length := by simpa [hs_def] using hn
  have hsnan : ∀ x ∈ s, x.isNaN = false := fun x hx =>
    hnan x ((List.mergeSort_perm xs _).subset hx)
  obtain ⟨L, hL, hstrict, hcap, hmem, -⟩ := points_of_sorted s.toArray (hsize ▸ hn) (hsize ▸ hlen)
  have hok : ofSamples xs = .ok ⟨L⟩ := by
    simp only [ofSamples, List.isEmpty_iff, hne, if_false, ← hs_def, hL]
  have hbounds : ∀ p, AfterOrigin s.toArray p → 0 < p.fraction.word ∧ p.fraction.word ≤ one.word :=
    fun p => AfterOrigin.fraction_pos_le_one (hsize ▸ hn) (hsize ▸ hlen)
  -- the origin, of fraction `+0`, comes first
  obtain ⟨rest, rfl⟩ := eq_cons_of_pairwise_lt hstrict ((hmem _).2 (Or.inl rfl))
    fun _ _ => Nat.zero_le _
  obtain ⟨horigin, hrest⟩ := List.pairwise_cons.1 hstrict
  have hafter : ∀ p ∈ rest, AfterOrigin s.toArray p := fun p hp =>
    ((hmem p).1 (List.mem_cons_of_mem _ hp)).resolve_left fun h => by
      have := horigin p hp
      rw [h] at this
      exact lt_irrefl _ this
  have hmin : ⟨sampleAt s.toArray 0, minFraction s.toArray.size⟩ ∈ rest :=
    ((List.mem_cons.1 ((hmem _).2 (Or.inr (Or.inl rfl)))).resolve_left fun h =>
      absurd (congrArg (·.fraction.word) h) (hbounds _ (Or.inl rfl)).1.ne')
  -- the point at `1` comes last: no fraction is above `1`
  obtain ⟨p₁, hp₁, hp₁f⟩ := exists_afterOrigin_fraction_eq_one s.toArray
  have hlast := getLast?_eq_of_pairwise_lt hstrict ((hmem p₁).2 (Or.inr hp₁)) fun b hb => by
    rw [hp₁f]
    rcases List.mem_cons.1 hb with rfl | hb
    · exact Nat.zero_le _
    · exact (hbounds b (hafter b hb)).2
  have htail := values_pairwise_le hsorted hspos (by simpa [hs_def] using hlen) hsnan hrest hafter
  refine ⟨⟨⟨zero, zero⟩ :: rest⟩, hok,
    hstrict.imp_of_mem fun hp hq h => lt_of_word_lt (hcap _ hp) (hcap _ hq) h, rfl,
    by simp [hlast, hp₁f], htail, sampleAt s.toArray 0, ?_, ?_⟩
  · rw [isLeastSample_iff_isRank, ← sampleAt_eq_iff_isRank hn]
  · -- the origin's `+0` heads the column: it grows from there exactly when the least sample does
    rw [List.map_cons, List.pairwise_cons, and_iff_left htail]
    exact origin_le_iff hsorted hspos hsnan hafter hmin

/-- Three samples with a negative zero and an infinity: the least sample `-0` equals zero, so the
origin does not break the order of the value column. -/
theorem ofSamples_monotone_three_samples :
    [inf, negZero, one] ≠ [] ∧ [inf, negZero, one].length ≤ u64Max ∧
      (∀ x ∈ [inf, negZero, one], x.isNaN = false) ∧
      ∃ t, ofSamples [inf, negZero, one] = .ok t ∧
        t.points.Pairwise (fun p q => lt p.fraction q.fraction = true) ∧
        t.points.head? = some ⟨zero, zero⟩ ∧
        t.points.getLast?.map (·.fraction) = some one ∧
        (t.points.tail.map (·.value)).Pairwise (fun a b => le a b = true) ∧
        ∃ v, IsLeastSample [inf, negZero, one] v ∧
          ((t.points.map (·.value)).Pairwise (fun a b => le a b = true) ↔ le zero v = true) :=
  ⟨by decide, by decide, by decide, ofSamples_monotone _ (by decide) (by decide) (by decide)⟩

end Latency

end ClusterSweep
