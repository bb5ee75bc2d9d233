import Mathlib
import ClusterSweep.Checked
import ClusterSweep.Latency.Percentiles
import ClusterSweep.Proofs.OrderStatistics
import ClusterSweep.Proofs.Rounding

/-!
# Percentile tables

The table of `n` samples holds the origin `(0, 0)`, the least sample at the fraction `1/n`, the
`i/100`, `999/1000` and `9999/10000` quantiles at the fractions of their levels, and the
greatest sample at `1` (`TableEntry`), by strictly increasing fraction; a level's fraction equal
to `1/n` gives way to the least sample (`ofSamples_percentiles`).

Three facts carry it.  The fractions after the least sample's strictly increase, and `1/n` is one
of them exactly when `n` divides `100` (`minFraction_spec`): up to `100` samples by evaluation,
past that because rounding is monotone and `1/n` then lies below `1/100`.  Sorting by fraction is
stable, so the least sample's point goes before a tail point of the same fraction, and dropping
repeated fractions drops that point alone (`points_of_sorted`).  The sample at position
`⌊n · num / den⌋` of the sorted samples is the `num / den` quantile (`isQuantile_iff_getElem?`).
-/

namespace ClusterSweep.Latency

open Binary64

/-! ## Fractions -/

/-- The fraction of the least sample's point in a table of `n` samples: `1/n`, rounded. -/
def minFraction (n : ℕ) : Binary64 := div one (ofNat n)

/-- The percentile levels of a table: the fraction of each percentile point with the exact
quantile `num / den` it stands for, `i/100` for `i = 1 … 99`, then `0.999` and `0.9999`. -/
def percentileLevels : List (Binary64 × ℕ × ℕ) :=
  ((List.range 99).map fun k => (div (ofNat (k + 1)) (ofNat 100), k + 1, 100)) ++
    [(ofDecimal 999 (-3), 999, 1000), (ofDecimal 9999 (-4), 9999, 10000)]

/-- The fractions after the least sample's: the percentile levels', then `1`. -/
def tailFractions : List Binary64 := percentileLevels.map (·.1) ++ [one]

set_option maxRecDepth 10000 in
/-- The fractions after the least sample's strictly increase. -/
theorem tailFractions_pairwise : tailFractions.Pairwise (fun a b => a.word < b.word) := by
  decide +kernel

set_option maxRecDepth 10000 in
/-- They are finite, and none is below `1/100`. -/
theorem tailFractions_bounds :
    ∀ f ∈ tailFractions,
      (div (ofNat 1) (ofNat 100)).word ≤ f.word ∧ f.word < 0x7FF0000000000000 := by
  decide +kernel

set_option maxRecDepth 10000 in
/-- Up to `100` samples, `1/n` is a positive finite fraction that is one of the others exactly
when `n` divides `100`. -/
theorem minFraction_of_le_hundred : ∀ n < 101, 0 < n →
    0 < (minFraction n).word ∧ (minFraction n).word < 0x7FF0000000000000 ∧
      (minFraction n ∈ tailFractions ↔ n ∣ 100) := by
  decide +kernel

/-- Past `100` samples, `1/n` lies between the rounded `1/2^64` and `1/101`: the count is a
positive finite number from `101` to `2^64`. -/
theorem minFraction_between {n : ℕ} (h : 101 ≤ n) (hn : n ≤ u64Max) :
    (ofRatio 1 18446744073709551616).word ≤ (minFraction n).word ∧
      (minFraction n).word ≤ (ofRatio 1 101).word := by
  have hu : u64Max = 18446744073709551615 := rfl
  have hw₁ : (ofNat 101).word ≤ (ofNat n).word :=
    word_ofRatio_mono one_pos one_pos (by simp only [Nat.cast_one, div_one]; exact_mod_cast h)
  have hw₂ : (ofNat n).word ≤ (ofNat 18446744073709551615).word :=
    word_ofRatio_mono one_pos one_pos (by simp only [Nat.cast_one, div_one]; exact_mod_cast hu ▸ hn)
  obtain ⟨m, k, hy⟩ := exists_classify_eq_finite (hw₂.trans_lt (by decide))
  have h₁ : (ofNat 101).classify = .finite false (101 * Nat.pow 2 46) (-46) := by decide
  have h₂ : (ofNat 18446744073709551615).classify = .finite false (Nat.pow 2 52) 12 := by decide
  -- the value `m · 2^k` of the count lies from `101` to `2^64`
  have hlo : (101 : ℚ) ≤ m * 2 ^ k := by
    have := value_le_of_word_le h₁ hy hw₁
    norm_num [natCast_two_pow] at this
    exact this
  have hhi : (m : ℚ) * 2 ^ k ≤ 2 ^ 64 := by
    have := value_le_of_word_le hy h₂ hw₂
    norm_num [natCast_two_pow] at this
    exact this
  have hm : 0 < m := by
    rcases Nat.eq_zero_or_pos m with rfl | hm
    · norm_num at hlo
    · exact hm
  obtain ⟨N, D, hD, hval, heq⟩ := div_one_eq_ofRatio hy hm
  have hpos : (0 : ℚ) < m * 2 ^ k := by linarith
  rw [minFraction, heq]
  constructor
  · apply word_ofRatio_mono (by norm_num) hD
    rw [hval]
    push_cast
    exact one_div_le_one_div_of_le hpos hhi
  · apply word_ofRatio_mono hD (by norm_num)
    rw [hval]
    push_cast
    exact one_div_le_one_div_of_le (by norm_num) hlo

/-- For every count of samples, `1/n` is a positive finite fraction, and it is one of the
fractions after it exactly when `n` divides `100`. -/
theorem minFraction_spec {n : ℕ} (h : 0 < n) (hn : n ≤ u64Max) :
    0 < (minFraction n).word ∧ (minFraction n).word < 0x7FF0000000000000 ∧
      (minFraction n ∈ tailFractions ↔ n ∣ 100) := by
  rcases Nat.lt_or_ge n 101 with hsmall | hbig
  · exact minFraction_of_le_hundred n hsmall h
  · -- past `100` samples `1/n` is below `1/100`, the least of the other fractions
    obtain ⟨hlo, hhi⟩ := minFraction_between hbig hn
    have hpos : 0 < (ofRatio 1 18446744073709551616).word := by decide
    have hbelow : (ofRatio 1 101).word < (div (ofNat 1) (ofNat 100)).word := by decide
    have hfin : (div (ofNat 1) (ofNat 100)).word < 0x7FF0000000000000 := by decide
    refine ⟨by omega, by omega, ⟨fun hmem => ?_, fun hdvd => ?_⟩⟩
    · have := (tailFractions_bounds _ hmem).1
      omega
    · have := Nat.le_of_dvd (by norm_num) hdvd
      omega

/-! ## The raw points -/

/-- The sample at position `i` of the sorted samples, positions capped at the last. -/
def sampleAt (sorted : Array Binary64) (i : ℕ) : Binary64 :=
  sorted.getD (min i (sorted.size - 1)) zero

/-- The points after the least sample's: each percentile level's sample, then the greatest. -/
def tailPoints (sorted : Array Binary64) : List PercentilePoint :=
  percentileLevels.map (fun lv => ⟨sampleAt sorted (sorted.size * lv.2.1 / lv.2.2), lv.1⟩) ++
    [⟨sampleAt sorted (sorted.size - 1), one⟩]

/-- The raw points are the origin, the least sample at `1/n`, and the tail points. -/
theorem rawPoints_eq (sorted : Array Binary64) :
    PercentileTable.rawPoints sorted =
      ⟨zero, zero⟩ :: ⟨sampleAt sorted 0, minFraction sorted.size⟩ :: tailPoints sorted := by
  simp only [PercentileTable.rawPoints, tailPoints, percentileLevels, sampleAt, minFraction,
    List.map_append, List.map_map, List.map_cons, List.map_nil, Function.comp_def,
    List.cons_append, List.nil_append, List.append_assoc]

/-- The tail points carry the tail fractions, in order. -/
theorem map_fraction_tailPoints (sorted : Array Binary64) :
    (tailPoints sorted).map (·.fraction) = tailFractions := by
  simp only [tailPoints, tailFractions, List.map_append, List.map_map, List.map_cons, List.map_nil,
    Function.comp_def]

/-! ## Sorting the points by fraction -/

namespace PercentileTable

theorem fractionLe_trans (a b c : PercentilePoint) (hab : totalLe a.fraction b.fraction = true)
    (hbc : totalLe b.fraction c.fraction = true) : totalLe a.fraction c.fraction = true :=
  totalLe_trans hab hbc

theorem fractionLe_total (a b : PercentilePoint) :
    (totalLe a.fraction b.fraction || totalLe b.fraction a.fraction) = true :=
  Bool.or_eq_true_iff.2 (totalLe_total _ _)

/-- Sorting a point that precedes all others, then a point `b`, then points already sorted: the
first stays first, and `b` goes after the points strictly below it and before all others, since
the sort is stable. -/
theorem mergeSort_cons_cons {a b : PercentilePoint} {rest : List PercentilePoint}
    (hrest : rest.Pairwise (fun p q => totalLe p.fraction q.fraction = true))
    (ha : ∀ p ∈ b :: rest, totalLe a.fraction p.fraction = true) :
    ∃ l₁ l₂, (a :: b :: rest).mergeSort (fun p q => totalLe p.fraction q.fraction) =
        a :: (l₁ ++ b :: l₂) ∧ rest = l₁ ++ l₂ ∧
      (∀ p ∈ l₁, totalLe b.fraction p.fraction = false) ∧
      (∀ p ∈ l₂, totalLe b.fraction p.fraction = true) := by
  obtain ⟨L₁, L₂, h₁, h₂, h₃⟩ := List.mergeSort_cons fractionLe_trans fractionLe_total a (b :: rest)
  obtain ⟨l₁, l₂, h₁', h₂', h₃'⟩ := List.mergeSort_cons fractionLe_trans fractionLe_total b rest
  -- nothing sorts before `a`
  have hL₁ : L₁ = [] := by
    refine List.eq_nil_iff_forall_not_mem.2 fun p hp => ?_
    have hmem : p ∈ b :: rest :=
      (List.mergeSort_perm _ _).subset (h₂ ▸ List.mem_append_left L₂ hp)
    have := h₃ p hp
    rw [ha p hmem] at this
    exact Bool.false_ne_true this
  subst hL₁
  rw [List.mergeSort_of_pairwise hrest] at h₂'
  have hsorted := List.pairwise_mergeSort fractionLe_trans fractionLe_total (b :: rest)
  rw [h₁'] at hsorted
  refine ⟨l₁, l₂, ?_, h₂', fun p hp => by simpa using h₃' p hp, fun p hp => ?_⟩
  · rw [h₁, List.nil_append, ← List.nil_append L₂, ← h₂, h₁']
  · -- `b` precedes every point of `l₂` in the sorted list
    exact (List.pairwise_cons.1 (List.pairwise_append.1 hsorted).2.1).1 p hp

/-! ## Dropping repeated fractions -/

/-- A point below the points after it is kept, and none of them is dropped for it. -/
theorem dropRepeats_cons_of_lt {p : PercentilePoint} {rest : List PercentilePoint}
    (hp : p.fraction.word ≤ 0x7FF0000000000000)
    (hrest : ∀ q ∈ rest, p.fraction.word < q.fraction.word ∧ q.fraction.word ≤ 0x7FF0000000000000) :
    dropRepeats (p :: rest) = p :: dropRepeats rest := by
  rw [dropRepeats.eq_2]
  cases rest with
  | nil => rfl
  | cons q rest =>
    obtain ⟨hlt, hq⟩ := hrest q List.mem_cons_self
    rw [List.dropWhile_cons_of_neg]
    rw [eq_eq_true_iff hq hp]
    exact ne_of_apply_ne word hlt.ne'

/-- A point right after one of the same fraction is dropped. -/
theorem dropRepeats_cons_cons_of_eq {p q : PercentilePoint} {rest : List PercentilePoint}
    (h : eq q.fraction p.fraction = true) :
    dropRepeats (p :: q :: rest) = dropRepeats (p :: rest) := by
  rw [dropRepeats.eq_2, dropRepeats.eq_2,
    @List.dropWhile_cons_of_pos _ (fun r : PercentilePoint => eq r.fraction p.fraction) q rest h]

/-- Strictly increasing fractions repeat nothing. -/
theorem dropRepeats_of_pairwise {l : List PercentilePoint}
    (hl : l.Pairwise (fun p q => p.fraction.word < q.fraction.word))
    (hcap : ∀ p ∈ l, p.fraction.word ≤ 0x7FF0000000000000) : dropRepeats l = l := by
  induction l with
  | nil => exact dropRepeats.eq_1
  | cons p rest ih =>
    obtain ⟨hp, hrest⟩ := List.pairwise_cons.1 hl
    have hcap' : ∀ q ∈ rest, q.fraction.word ≤ 0x7FF0000000000000 :=
      fun q hq => hcap q (List.mem_cons_of_mem p hq)
    rw [dropRepeats_cons_of_lt (hcap p List.mem_cons_self) (fun q hq => ⟨hp q hq, hcap' q hq⟩),
      ih hrest hcap']

/-- In a list strictly increasing but for one pair of equal fractions, the second of the pair is
the only point dropped. -/
theorem dropRepeats_append_cons_cons (A : List PercentilePoint) {p q : PercentilePoint}
    {B : List PercentilePoint} (hq : q.fraction = p.fraction)
    (hl : (A ++ p :: B).Pairwise (fun p q => p.fraction.word < q.fraction.word))
    (hcap : ∀ r ∈ A ++ p :: q :: B, r.fraction.word ≤ 0x7FF0000000000000) :
    dropRepeats (A ++ p :: q :: B) = A ++ p :: B := by
  induction A with
  | nil =>
    have hp : p.fraction.word ≤ 0x7FF0000000000000 := hcap p (by simp)
    rw [List.nil_append, dropRepeats_cons_cons_of_eq ((eq_eq_true_iff (hq ▸ hp) hp).2 hq)]
    exact dropRepeats_of_pairwise hl fun r hr =>
      hcap r (((List.sublist_cons_self q B).cons_cons p).subset hr)
  | cons a A ih =>
    obtain ⟨ha, hl'⟩ := List.pairwise_cons.1 hl
    have hcap' : ∀ r ∈ A ++ p :: q :: B, r.fraction.word ≤ 0x7FF0000000000000 :=
      fun r hr => hcap r (List.mem_cons_of_mem a hr)
    -- `a` is below every later point, `q` included since it has the fraction of `p`
    have hbelow : ∀ r ∈ A ++ p :: q :: B,
        a.fraction.word < r.fraction.word ∧ r.fraction.word ≤ 0x7FF0000000000000 := by
      intro r hr
      refine ⟨?_, hcap' r hr⟩
      simp only [List.mem_append, List.mem_cons] at hr
      rcases hr with hr | rfl | rfl | hr
      · exact ha r (List.mem_append_left _ hr)
      · exact ha r (by simp)
      · rw [hq]
        exact ha p (by simp)
      · exact ha r (by simp [hr])
    rw [List.cons_append, List.cons_append, dropRepeats_cons_of_lt (hcap a (by simp)) hbelow,
      ih hl' hcap']

/-! ## The points of a table -/

/-- The tail points strictly increase by fraction. -/
theorem tailPoints_pairwise (sorted : Array Binary64) :
    (tailPoints sorted).Pairwise (fun p q => p.fraction.word < q.fraction.word) := by
  have h := tailFractions_pairwise
  rw [← map_fraction_tailPoints sorted, List.pairwise_map] at h
  exact h

theorem tailPoints_bounds (sorted : Array Binary64) :
    ∀ p ∈ tailPoints sorted, (div (ofNat 1) (ofNat 100)).word ≤ p.fraction.word ∧
      p.fraction.word < 0x7FF0000000000000 := fun p hp =>
  tailFractions_bounds p.fraction (map_fraction_tailPoints sorted ▸ List.mem_map_of_mem hp)

theorem length_tailPoints (sorted : Array Binary64) : (tailPoints sorted).length = 102 := by
  simp [tailPoints, percentileLevels]

/-- The origin, then points below `m`, then `m`, then points above it, strictly increase. -/
theorem pairwise_origin_cons {l₁ l₂ : List PercentilePoint} {m : PercentilePoint}
    (h : (l₁ ++ l₂).Pairwise (fun p q => p.fraction.word < q.fraction.word))
    (h₁ : ∀ p ∈ l₁, p.fraction.word < m.fraction.word)
    (h₂ : ∀ p ∈ l₂, m.fraction.word < p.fraction.word) (hm : 0 < m.fraction.word)
    (hpos : ∀ p ∈ l₁ ++ l₂, 0 < p.fraction.word) :
    (⟨zero, zero⟩ :: (l₁ ++ m :: l₂)).Pairwise (fun p q => p.fraction.word < q.fraction.word) := by
  obtain ⟨hl₁, hl₂, h₁₂⟩ := List.pairwise_append.1 h
  have hzero : zero.word = 0 := rfl
  refine List.pairwise_cons.2 ⟨fun p hp => ?_, List.pairwise_append.2 ⟨hl₁,
    List.pairwise_cons.2 ⟨h₂, hl₂⟩, fun a ha b hb => ?_⟩⟩
  · -- the origin's fraction is `+0`, below every positive one
    rw [hzero]
    simp only [List.mem_append, List.mem_cons] at hp
    rcases hp with hp | rfl | hp
    · exact hpos p (List.mem_append_left _ hp)
    · exact hm
    · exact hpos p (List.mem_append_right _ hp)
  · rcases List.mem_cons.1 hb with rfl | hb
    · exact h₁ a ha
    · exact h₁₂ a ha b hb

/-- There are `102` tail fractions, and all but `g` of them are kept when `g` is one. -/
theorem length_filter_tailPoints (sorted : Array Binary64) (g : Binary64) :
    ((tailPoints sorted).filter (·.fraction != g)).length =
      if g ∈ tailFractions then 101 else 102 := by
  have hnodup : tailFractions.Nodup := tailFractions_pairwise.imp fun h => ne_of_apply_ne word h.ne
  have hlen : tailFractions.length = 102 := by
    rw [← map_fraction_tailPoints sorted, List.length_map, length_tailPoints]
  calc ((tailPoints sorted).filter (·.fraction != g)).length
      = (((tailPoints sorted).filter (·.fraction != g)).map (·.fraction)).length :=
        (List.length_map _).symm
    _ = (tailFractions.filter (· != g)).length := by
        rw [← map_fraction_tailPoints sorted, List.filter_map]
        rfl
    _ = (tailFractions.erase g).length := by rw [hnodup.erase_eq_filter]
    _ = if g ∈ tailFractions then 101 else 102 := by
        rw [List.length_erase, hlen]

/-- Sorted by fraction, the raw points are the origin, the tail points below `1/n`, the least
sample's point, then the tail points at or above `1/n`. -/
theorem mergeSort_rawPoints (sorted : Array Binary64) (hpos : 0 < sorted.size)
    (hmax : sorted.size ≤ u64Max) :
    ∃ l₁ l₂, (rawPoints sorted).mergeSort (fun a b => totalLe a.fraction b.fraction) =
        ⟨zero, zero⟩ :: (l₁ ++ ⟨sampleAt sorted 0, minFraction sorted.size⟩ :: l₂) ∧
      tailPoints sorted = l₁ ++ l₂ ∧
      (∀ p ∈ l₁, p.fraction.word < (minFraction sorted.size).word) ∧
      (∀ p ∈ l₂, (minFraction sorted.size).word ≤ p.fraction.word) := by
  obtain ⟨-, hg₁, -⟩ := minFraction_spec hpos hmax
  have hTb := tailPoints_bounds sorted
  have hcap : (0x7FF0000000000000 : ℕ) < Nat.pow 2 63 := by decide
  -- against a tail point, the total order of finite non-negative patterns is their order
  have hle : ∀ p ∈ tailPoints sorted, ∀ x : Binary64, x.word < 0x7FF0000000000000 →
      (totalLe x p.fraction = true ↔ x.word ≤ p.fraction.word) := fun p hp x hx =>
    totalLe_iff_word_le (hx.trans hcap) ((hTb p hp).2.trans hcap)
  have hTle : (tailPoints sorted).Pairwise (fun p q => totalLe p.fraction q.fraction = true) :=
    (tailPoints_pairwise sorted).imp_of_mem fun hp hq h => (hle _ hq _ (hTb _ hp).2).2 h.le
  -- the origin's fraction `+0` precedes every other
  have horigin : ∀ p ∈ ⟨sampleAt sorted 0, minFraction sorted.size⟩ :: tailPoints sorted,
      totalLe zero p.fraction = true := by
    intro p hp
    rcases List.mem_cons.1 hp with rfl | hp
    · exact (totalLe_iff_word_le (by decide) (hg₁.trans hcap)).2 (Nat.zero_le _)
    · exact (hle p hp zero (by decide)).2 (Nat.zero_le _)
  obtain ⟨l₁, l₂, hsort, hsplit, hl₁, hl₂⟩ :=
    @mergeSort_cons_cons ⟨zero, zero⟩ _ _ hTle horigin
  refine ⟨l₁, l₂, by rw [rawPoints_eq, hsort], hsplit, fun p hp => ?_, fun p hp => ?_⟩
  · have := hl₁ p hp
    rw [← Bool.not_eq_true, hle p (hsplit ▸ List.mem_append_left _ hp) _ hg₁] at this
    omega
  · exact (hle p (hsplit ▸ List.mem_append_right _ hp) _ hg₁).1 (hl₂ p hp)

/-- Dropping repeated fractions from the origin, points below `m`, `m`, then points at or above
`m`, strictly increasing apart from `m`: the one point after `m` with `m`'s fraction, if any, is
all that goes. -/
theorem dropRepeats_origin_cons {l₁ l₂ : List PercentilePoint} {m : PercentilePoint}
    (h : (l₁ ++ l₂).Pairwise (fun p q => p.fraction.word < q.fraction.word))
    (h₁ : ∀ p ∈ l₁, p.fraction.word < m.fraction.word)
    (h₂ : ∀ p ∈ l₂, m.fraction.word ≤ p.fraction.word) (hm : 0 < m.fraction.word)
    (hpos : ∀ p ∈ l₁ ++ l₂, 0 < p.fraction.word)
    (hcap : ∀ p ∈ l₁ ++ m :: l₂, p.fraction.word ≤ 0x7FF0000000000000) :
    dropRepeats (⟨zero, zero⟩ :: (l₁ ++ m :: l₂)) =
        ⟨zero, zero⟩ :: (l₁ ++ m :: l₂.filter (·.fraction != m.fraction)) ∧
      (⟨zero, zero⟩ :: (l₁ ++ m :: l₂.filter (·.fraction != m.fraction))).Pairwise
        (fun p q => p.fraction.word < q.fraction.word) := by
  have hcap' : ∀ p ∈ ⟨zero, zero⟩ :: (l₁ ++ m :: l₂), p.fraction.word ≤ 0x7FF0000000000000 := by
    intro p hp
    rcases List.mem_cons.1 hp with rfl | hp
    · decide
    · exact hcap p hp
  cases l₂ with
  | nil =>
    have hstrict := pairwise_origin_cons h h₁ (fun _ hp => nomatch hp) hm hpos
    exact ⟨dropRepeats_of_pairwise hstrict hcap', hstrict⟩
  | cons a B =>
    have haB : ∀ p ∈ B, a.fraction.word < p.fraction.word :=
      (List.pairwise_cons.1 (List.pairwise_append.1 h).2.1).1
    -- past `a` every fraction is above `m`'s, so none of them goes
    have hB : ∀ p ∈ B, m.fraction.word < p.fraction.word := fun p hp =>
      lt_of_le_of_lt (h₂ a List.mem_cons_self) (haB p hp)
    have hfilter : B.filter (·.fraction != m.fraction) = B :=
      List.filter_eq_self.2 fun p hp => bne_iff_ne.2 (ne_of_apply_ne word (hB p hp).ne')
    by_cases ha : a.fraction = m.fraction
    · -- `a` repeats the fraction of `m` and goes
      have hsub : (l₁ ++ B).Sublist (l₁ ++ a :: B) := (List.sublist_cons_self a B).append_left l₁
      have hstrict := pairwise_origin_cons (h.sublist hsub) h₁ hB hm fun p hp =>
        hpos p (hsub.subset hp)
      rw [List.filter_cons_of_neg (by simp [ha]), hfilter]
      refine ⟨?_, hstrict⟩
      rw [← List.cons_append] at hstrict hcap' ⊢
      exact dropRepeats_append_cons_cons _ ha hstrict hcap'
    · -- every fraction after `m` is above it: nothing goes
      have ha' : m.fraction.word < a.fraction.word :=
        lt_of_le_of_ne (h₂ a List.mem_cons_self) fun he => ha (ext_word he.symm)
      have hstrict := pairwise_origin_cons h h₁ (fun p hp => by
        rcases List.mem_cons.1 hp with rfl | hp
        · exact ha'
        · exact hB p hp) hm hpos
      rw [List.filter_cons_of_pos (by simp [ha]), hfilter]
      exact ⟨dropRepeats_of_pairwise hstrict hcap', hstrict⟩

/-- The points of a table: the origin, the least sample at `1/n`, and the tail points whose
fraction is not `1/n`, strictly increasing by fraction; `103` of them when `n` divides `100`,
`104` otherwise. -/
theorem points_of_sorted (sorted : Array Binary64) (hpos : 0 < sorted.size)
    (hmax : sorted.size ≤ u64Max) :
    ∃ L, dropRepeats ((rawPoints sorted).mergeSort fun a b => totalLe a.fraction b.fraction) = L ∧
      L.Pairwise (fun p q => p.fraction.word < q.fraction.word) ∧
      (∀ p ∈ L, p.fraction.word ≤ 0x7FF0000000000000) ∧
      (∀ p, p ∈ L ↔ p = ⟨zero, zero⟩ ∨ p = ⟨sampleAt sorted 0, minFraction sorted.size⟩ ∨
        (p ∈ tailPoints sorted ∧ p.fraction ≠ minFraction sorted.size)) ∧
      L.length = if sorted.size ∣ 100 then 103 else 104 := by
  obtain ⟨hg₀, hg₁, hcoll⟩ := minFraction_spec hpos hmax
  obtain ⟨l₁, l₂, hsort, hsplit, hbelow, habove⟩ := mergeSort_rawPoints sorted hpos hmax
  have hTb := tailPoints_bounds sorted
  have hp₁ : 0 < (div (ofNat 1) (ofNat 100)).word := by decide
  have hcap : ∀ p ∈ l₁ ++ ⟨sampleAt sorted 0, minFraction sorted.size⟩ :: l₂,
      p.fraction.word ≤ 0x7FF0000000000000 := by
    intro p hp
    rw [List.mem_append, List.mem_cons] at hp
    rcases hp with hp | rfl | hp
    · exact (hTb p (hsplit ▸ List.mem_append_left _ hp)).2.le
    · exact hg₁.le
    · exact (hTb p (hsplit ▸ List.mem_append_right _ hp)).2.le
  obtain ⟨hdrop, hstrict⟩ := dropRepeats_origin_cons (hsplit ▸ tailPoints_pairwise sorted) hbelow
    habove hg₀ (fun p hp => Nat.lt_of_lt_of_le hp₁ (hTb p (hsplit ▸ hp)).1) hcap
  -- the tail points kept are those whose fraction is not `1/n`: the ones below it all are
  have hkeep : l₁ ++ l₂.filter (·.fraction != minFraction sorted.size) =
      (tailPoints sorted).filter (·.fraction != minFraction sorted.size) := by
    have hne : ∀ p ∈ l₁, (p.fraction != minFraction sorted.size) = true := fun p hp =>
      bne_iff_ne.2 (ne_of_apply_ne word (hbelow p hp).ne)
    rw [hsplit, List.filter_append, List.filter_eq_self.2 hne]
  have hmem : ∀ p, p ∈ ⟨zero, zero⟩ :: (l₁ ++ ⟨sampleAt sorted 0, minFraction sorted.size⟩ ::
      l₂.filter (·.fraction != minFraction sorted.size)) ↔
      p = ⟨zero, zero⟩ ∨ p = ⟨sampleAt sorted 0, minFraction sorted.size⟩ ∨
        p ∈ l₁ ++ l₂.filter (·.fraction != minFraction sorted.size) := fun p => by
    simp only [List.mem_cons, List.mem_append, or_left_comm]
  refine ⟨_, hsort ▸ hdrop, hstrict, fun p hp => ?_, fun p => ?_, ?_⟩
  · rcases (hmem p).1 hp with rfl | rfl | hp
    · decide
    · exact hg₁.le
    · rw [hkeep, List.mem_filter] at hp
      exact (hTb p hp.1).2.le
  · rw [hmem, hkeep, List.mem_filter, bne_iff_ne]
  · have hlen := congrArg List.length hkeep
    rw [List.length_append, length_filter_tailPoints] at hlen
    simp only [List.length_cons, List.length_append, hcoll] at hlen ⊢
    by_cases hc : sorted.size ∣ 100
    · simp only [hc, if_true] at hlen ⊢
      omega
    · simp only [hc, if_false] at hlen ⊢
      omega

end PercentileTable

/-! ## The table of a list of samples -/

open PercentileTable

/-- What the table of `xs` holds, read as a map from fraction to value: the origin, the least
sample at `1/n`, the `num / den` quantile at the fraction of each percentile level and the
greatest sample at `1`, where a fraction equal to `1/n` gives way to the least sample. -/
def TableEntry (xs : List Binary64) (p : PercentilePoint) : Prop :=
  p = ⟨zero, zero⟩ ∨
    p.fraction = minFraction xs.length ∧ IsLeastSample xs p.value ∨
    p.fraction ≠ minFraction xs.length ∧
      ((∃ lv ∈ percentileLevels, p.fraction = lv.1 ∧ IsQuantile xs lv.2.1 lv.2.2 p.value) ∨
        p.fraction = one ∧ IsGreatestSample xs p.value)

/-- Every level is a quantile below `1`. -/
theorem percentileLevels_lt : ∀ lv ∈ percentileLevels, lv.2.1 < lv.2.2 := by
  decide

theorem PercentilePoint.eq_mk_iff {p : PercentilePoint} {v f : Binary64} :
    p = ⟨v, f⟩ ↔ p.fraction = f ∧ p.value = v := by
  cases p
  simp only [PercentilePoint.mk.injEq]
  exact And.comm

/-- Below `n`, a capped position of the sorted samples is that position. -/
theorem getElem?_eq_some_sampleAt {l : List Binary64} {k : ℕ} (hk : k < l.length) :
    l[k]? = some (sampleAt l.toArray k) := by
  have hmin : min k (l.length - 1) = k := by omega
  simp [sampleAt, hmin, hk]

section Samples

variable {xs : List Binary64}

/-- A sample at a capped position `k < n` of the sorted samples is the sample of rank `k`. -/
theorem sampleAt_eq_iff_isRank {k : ℕ} (hk : k < xs.length) {v : Binary64} :
    sampleAt (xs.mergeSort totalLe).toArray k = v ↔ IsRank xs k v := by
  rw [isRank_iff hk, getElem?_eq_some_sampleAt (by rwa [List.length_mergeSort]), Option.some_inj]

/-- The quantile of a percentile level is the sample at position `⌊n · num / den⌋` of the sorted
samples, a position below `n`, so capping it at the last position changes nothing. -/
theorem isQuantile_iff_getElem? (hne : xs ≠ []) {lv : Binary64 × ℕ × ℕ}
    (hlv : lv ∈ percentileLevels) :
    xs.length * lv.2.1 / lv.2.2 < xs.length ∧ ∀ v, IsQuantile xs lv.2.1 lv.2.2 v ↔
      (xs.mergeSort totalLe)[xs.length * lv.2.1 / lv.2.2]? = some v := by
  have hn : 0 < xs.length := List.length_pos_of_ne_nil hne
  have hlt := percentileLevels_lt lv hlv
  have hk : xs.length * lv.2.1 / lv.2.2 < xs.length :=
    Nat.div_lt_of_lt_mul (by rw [Nat.mul_comm lv.2.2]; exact Nat.mul_lt_mul_of_pos_left hlt hn)
  exact ⟨hk, fun v => (isQuantile_iff_isRank (Nat.zero_lt_of_lt hlt)).trans (isRank_iff hk)⟩

/-- The tail points hold each level's quantile at its fraction and the greatest sample at `1`. -/
theorem mem_tailPoints_iff (hne : xs ≠ []) {p : PercentilePoint} :
    p ∈ tailPoints (xs.mergeSort totalLe).toArray ↔
      (∃ lv ∈ percentileLevels, p.fraction = lv.1 ∧ IsQuantile xs lv.2.1 lv.2.2 p.value) ∨
        p.fraction = one ∧ IsGreatestSample xs p.value := by
  have hn : 0 < xs.length := List.length_pos_of_ne_nil hne
  have hsize : (xs.mergeSort totalLe).toArray.size = xs.length := by simp
  simp only [tailPoints, hsize, List.mem_append, List.mem_map, List.mem_singleton]
  apply or_congr
  · -- a level's point: its fraction, and the sample at the level's position
    apply exists_congr
    intro lv
    apply and_congr_right
    intro hlv
    obtain ⟨hk, hq⟩ := isQuantile_iff_getElem? hne hlv
    rw [eq_comm, PercentilePoint.eq_mk_iff, hq, isRank_iff hk |>.symm, ← sampleAt_eq_iff_isRank hk,
      eq_comm (a := p.value)]
  · rw [PercentilePoint.eq_mk_iff, isGreatestSample_iff_isRank,
      ← sampleAt_eq_iff_isRank (by omega), eq_comm (b := p.value)]

/-- The table holds exactly the entries its specification names. -/
theorem mem_points_iff_tableEntry (hne : xs ≠ []) {p : PercentilePoint} :
    (p = ⟨zero, zero⟩ ∨ p = ⟨sampleAt (xs.mergeSort totalLe).toArray 0, minFraction xs.length⟩ ∨
      (p ∈ tailPoints (xs.mergeSort totalLe).toArray ∧ p.fraction ≠ minFraction xs.length)) ↔
      TableEntry xs p := by
  have hn : 0 < xs.length := List.length_pos_of_ne_nil hne
  rw [TableEntry, PercentilePoint.eq_mk_iff (f := minFraction xs.length), mem_tailPoints_iff hne,
    eq_comm (a := p.value), sampleAt_eq_iff_isRank hn, ← isLeastSample_iff_isRank,
    and_comm (b := _ ≠ _)]

/-- The table depends only on the samples as a multiset. -/
theorem ofSamples_perm {ys : List Binary64} (h : ys.Perm xs) : ofSamples ys = ofSamples xs := by
  have hempty : ys.isEmpty = xs.isEmpty := by
    rw [Bool.eq_iff_iff, List.isEmpty_iff, List.isEmpty_iff, ← List.length_eq_zero_iff, h.length_eq,
      List.length_eq_zero_iff]
  unfold PercentileTable.ofSamples
  rw [hempty, mergeSort_totalLe_eq_of_perm h]

end Samples

/-- The percentile table of no samples is an error.  For `n` samples, at most `2^64 - 1` of
them, it holds exactly the origin, the least sample at `1/n`, each level's quantile at the
level's fraction and the greatest sample at `1`, by strictly increasing fraction, where a fraction
equal to `1/n` gives way to the least sample; that happens exactly when `n` divides `100`, and
the table then has `103` points, otherwise `104`.  Reordering the samples changes nothing. -/
theorem ofSamples_percentiles :
    ofSamples [] = .error .noSamples ∧
    ∀ xs : List Binary64, xs ≠ [] → xs.length ≤ u64Max →
      ∃ t, ofSamples xs = .ok t ∧
        t.points.Pairwise (fun p q => p.fraction.orderKey < q.fraction.orderKey) ∧
        (∀ p, p ∈ t.points ↔ TableEntry xs p) ∧
        (∀ lv ∈ percentileLevels, xs.length * lv.2.1 / lv.2.2 < xs.length ∧
          ∀ v, IsQuantile xs lv.2.1 lv.2.2 v ↔
            (xs.mergeSort totalLe)[xs.length * lv.2.1 / lv.2.2]? = some v) ∧
        (minFraction xs.length ∈ tailFractions ↔ xs.length ∣ 100) ∧
        t.points.length = (if xs.length ∣ 100 then 103 else 104) ∧
        ∀ ys, ys.Perm xs → ofSamples ys = .ok t := by
  refine ⟨rfl, fun xs hne hlen => ?_⟩
  have hsize : (xs.mergeSort totalLe).toArray.size = xs.length := by simp
  have hn : 0 < xs.length := List.length_pos_of_ne_nil hne
  obtain ⟨L, hL, hstrict, hcap, hmem, hlength⟩ :=
    points_of_sorted (xs.mergeSort totalLe).toArray (hsize ▸ hn) (hsize ▸ hlen)
  rw [hsize] at hmem hlength
  have hok : ofSamples xs = .ok ⟨L⟩ := by
    simp only [ofSamples, List.isEmpty_iff, hne, if_false, hL]
  refine ⟨⟨L⟩, hok, ?_, fun p => (hmem p).trans (mem_points_iff_tableEntry hne),
    fun lv hlv => isQuantile_iff_getElem? hne hlv, (minFraction_spec hn hlen).2.2, hlength,
    fun ys hys => (ofSamples_perm hys).trans hok⟩
  -- on patterns with a clear sign bit the total order is the order of the patterns
  refine hstrict.imp_of_mem fun hp hq h => ?_
  have hcap' : (0x7FF0000000000000 : ℕ) < Nat.pow 2 63 := by decide
  rw [orderKey_of_word_lt ((hcap _ hp).trans_lt hcap'),
    orderKey_of_word_lt ((hcap _ hq).trans_lt hcap')]
  omega

/-- Four samples with a NaN, a negative zero and an infinity: `4` divides `100`, so the point of
`1/4` is the least sample's and the table has `103` points. -/
theorem ofSamples_percentiles_four_samples :
    [nan, one, negZero, inf] ≠ [] ∧ [nan, one, negZero, inf].length ≤ u64Max ∧
      ∃ t, ofSamples [nan, one, negZero, inf] = .ok t ∧
        t.points.Pairwise (fun p q => p.fraction.orderKey < q.fraction.orderKey) ∧
        (∀ p, p ∈ t.points ↔ TableEntry [nan, one, negZero, inf] p) ∧
        (∀ lv ∈ percentileLevels, [nan, one, negZero, inf].length * lv.2.1 / lv.2.2 <
            [nan, one, negZero, inf].length ∧
          ∀ v, IsQuantile [nan, one, negZero, inf] lv.2.1 lv.2.2 v ↔
            ([nan, one, negZero, inf].mergeSort totalLe)[
              [nan, one, negZero, inf].length * lv.2.1 / lv.2.2]? = some v) ∧
        (minFraction [nan, one, negZero, inf].length ∈ tailFractions ↔
          [nan, one, negZero, inf].length ∣ 100) ∧
        t.points.length = (if [nan, one, negZero, inf].length ∣ 100 then 103 else 104) ∧
        ∀ ys, ys.Perm [nan, one, negZero, inf] → ofSamples ys = .ok t :=
  ⟨by decide, by decide, ofSamples_percentiles.2 _ (by decide) (by decide)⟩

end ClusterSweep.Latency
