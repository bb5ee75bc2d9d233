import Mathlib
import ClusterSweep.Binary64.Basic

/-!
# Order statistics of samples

Latency samples are ordered by the IEEE total order `Binary64.totalLe`.  The sample of rank `k`
(`IsRank`) is the least sample with more than `k` samples at or below it; the `num / den`
quantile (`IsQuantile`) is the least sample with strictly more than `n · num / den` of the `n`
samples at or below it, so it is the sample of rank `⌊n · num / den⌋` (`isQuantile_iff_isRank`).
The least and the greatest sample are the ranks `0` and `n - 1`.

Sorting the samples by the total order puts the sample of rank `k` at position `k`
(`isRank_iff`), and the sorted list depends only on the samples as a multiset
(`mergeSort_totalLe_eq_of_perm`), since the total order is antisymmetric on patterns.
-/

namespace ClusterSweep

namespace Binary64

theorem totalLe_refl (x : Binary64) : totalLe x x = true := by
  simp [totalLe]

theorem totalLe_antisymm {x y : Binary64} (h₁ : totalLe x y = true) (h₂ : totalLe y x = true) :
    x = y := by
  unfold totalLe at h₁ h₂
  simp only [decide_eq_true_eq] at h₁ h₂
  exact orderKey_injective (Nat.le_antisymm h₁ h₂)

/-- A pattern with a clear sign bit counts up from `2^63` in the total order. -/
theorem orderKey_of_word_lt {x : Binary64} (h : x.word < Nat.pow 2 63) :
    x.orderKey = x.word + Nat.pow 2 63 := by
  have hs : x.sign = false := by
    simp only [sign, decide_eq_false_iff_not]
    omega
  simp only [orderKey, hs, Bool.false_eq_true, if_false]

/-- On patterns with a clear sign bit the total order is the order of the patterns. -/
theorem totalLe_iff_word_le {x y : Binary64} (hx : x.word < Nat.pow 2 63)
    (hy : y.word < Nat.pow 2 63) : totalLe x y = true ↔ x.word ≤ y.word := by
  simp only [totalLe, orderKey_of_word_lt hx, orderKey_of_word_lt hy, decide_eq_true_eq]
  omega

/-- Sorting by the total order gives a sorted list. -/
theorem pairwise_mergeSort_totalLe (xs : List Binary64) :
    (xs.mergeSort totalLe).Pairwise (totalLe · · = true) :=
  @List.pairwise_mergeSort _ totalLe (fun _ _ _ => totalLe_trans)
    (fun a b => Bool.or_eq_true_iff.2 (totalLe_total a b)) xs

/-- Sorting by the total order is determined by the samples as a multiset. -/
theorem mergeSort_totalLe_eq_of_perm {xs ys : List Binary64} (h : xs.Perm ys) :
    xs.mergeSort totalLe = ys.mergeSort totalLe := by
  apply List.Perm.eq_of_pairwise
    (fun a b _ _ (hab : totalLe a b = true) (hba : totalLe b a = true) => totalLe_antisymm hab hba)
  · exact pairwise_mergeSort_totalLe xs
  · exact pairwise_mergeSort_totalLe ys
  · exact (List.mergeSort_perm xs _).trans (h.trans (List.mergeSort_perm ys _).symm)

end Binary64

namespace Latency

open Binary64

/-- `v` is the sample of rank `k`: the least sample, in the total order, with more than `k`
samples at or below it. -/
def IsRank (xs : List Binary64) (k : ℕ) (v : Binary64) : Prop :=
  v ∈ xs ∧ k < xs.countP (totalLe · v) ∧ ∀ w ∈ xs, k < xs.countP (totalLe · w) → totalLe v w = true

section Sorted

variable {s : List Binary64} (hs : s.Pairwise (totalLe · · = true))
include hs

/-- In a sorted list every sample from position `k` on is at or above the one at `k`. -/
theorem le_of_mem_drop {k : ℕ} (hk : k < s.length) {y : Binary64} (hy : y ∈ s.drop k) :
    totalLe s[k] y = true := by
  obtain ⟨i, hi, rfl⟩ := List.mem_drop_iff_getElem.1 hy
  rcases Nat.eq_zero_or_pos i with rfl | hi₀
  · simp only [Nat.add_zero]
    exact totalLe_refl _
  · exact List.pairwise_iff_getElem.1 hs k (k + i) hk (by omega) (by omega)

/-- In a sorted list every sample up to position `k` is at or below the one at `k`. -/
theorem le_of_mem_take {k : ℕ} (hk : k < s.length) {y : Binary64} (hy : y ∈ s.take (k + 1)) :
    totalLe y s[k] = true := by
  obtain ⟨i, hi, rfl⟩ := List.mem_take_iff_getElem.1 hy
  rcases Nat.lt_or_ge i k with hlt | hge
  · exact List.pairwise_iff_getElem.1 hs i k _ hk hlt
  · have : i = k := by omega
    subst this
    exact totalLe_refl _

/-- The sample at position `k` of a sorted list has more than `k` samples at or below it. -/
theorem lt_countP_getElem {k : ℕ} (hk : k < s.length) : k < s.countP (totalLe · s[k]) := by
  have htake : (s.take (k + 1)).countP (totalLe · s[k]) = k + 1 := by
    rw [List.countP_eq_length.2 fun y hy => le_of_mem_take hs hk hy, List.length_take]
    omega
  calc k < (s.take (k + 1)).countP (totalLe · s[k]) := by omega
    _ ≤ s.countP (totalLe · s[k]) := (List.take_sublist _ _).countP_le

/-- A sample below the one at position `k` has at most `k` samples at or below it. -/
theorem countP_le_of_lt {k : ℕ} (hk : k < s.length) {w : Binary64} (hw : totalLe s[k] w = false) :
    s.countP (totalLe · w) ≤ k := by
  have hdrop : (s.drop k).countP (totalLe · w) = 0 := by
    rw [List.countP_eq_zero]
    intro y hy hyw
    have := totalLe_trans (le_of_mem_drop hs hk hy) hyw
    rw [hw] at this
    exact Bool.false_ne_true this
  calc s.countP (totalLe · w)
      = (s.take k).countP (totalLe · w) + (s.drop k).countP (totalLe · w) := by
        rw [← List.countP_append, List.take_append_drop]
    _ ≤ k := by
        rw [hdrop]
        have := List.countP_le_length (p := (totalLe · w)) (l := s.take k)
        rw [List.length_take] at this
        omega

/-- The sample at position `k` of a sorted arrangement of `xs` is the sample of rank `k`. -/
theorem isRank_getElem {xs : List Binary64} (hperm : s.Perm xs) {k : ℕ} (hk : k < s.length) :
    IsRank xs k s[k] := by
  refine ⟨hperm.subset (List.getElem_mem hk), ?_, ?_⟩
  · rw [← hperm.countP_eq]
    exact lt_countP_getElem hs hk
  · intro w _ hw
    rw [← hperm.countP_eq] at hw
    cases hle : totalLe s[k] w with
    | true => rfl
    | false => exact absurd (countP_le_of_lt hs hk hle) (by omega)

end Sorted

/-- A rank has one sample: the total order is antisymmetric. -/
theorem IsRank.unique {xs : List Binary64} {k : ℕ} {v w : Binary64} (hv : IsRank xs k v)
    (hw : IsRank xs k w) : v = w :=
  totalLe_antisymm (hv.2.2 w hw.1 hw.2.1) (hw.2.2 v hv.1 hv.2.1)

/-- The sample of each rank is read off the sorted samples. -/
theorem isRank_iff {xs : List Binary64} {k : ℕ} (hk : k < xs.length) {v : Binary64} :
    IsRank xs k v ↔ (xs.mergeSort totalLe)[k]? = some v := by
  have hk' : k < (xs.mergeSort totalLe).length := by rwa [List.length_mergeSort]
  have hrank := isRank_getElem (pairwise_mergeSort_totalLe xs) (List.mergeSort_perm xs _) hk'
  rw [List.getElem?_eq_getElem hk', Option.some_inj]
  exact ⟨fun hv => (hv.unique hrank).symm, fun h => h ▸ hrank⟩

/-- `v` is the `num / den` quantile of `xs`: the least sample, in the total order, with strictly
more than `n · num / den` of the `n` samples at or below it. -/
def IsQuantile (xs : List Binary64) (num den : ℕ) (v : Binary64) : Prop :=
  v ∈ xs ∧ xs.length * num < den * xs.countP (totalLe · v) ∧
    ∀ w ∈ xs, xs.length * num < den * xs.countP (totalLe · w) → totalLe v w = true

/-- The least sample in the total order. -/
def IsLeastSample (xs : List Binary64) (v : Binary64) : Prop :=
  v ∈ xs ∧ ∀ w ∈ xs, totalLe v w = true

/-- The greatest sample in the total order. -/
def IsGreatestSample (xs : List Binary64) (v : Binary64) : Prop :=
  v ∈ xs ∧ ∀ w ∈ xs, totalLe w v = true

/-- The `num / den` quantile is the sample of rank `⌊n · num / den⌋`: more than `n · num / den`
samples is more than its integer part. -/
theorem isQuantile_iff_isRank {xs : List Binary64} {num den : ℕ} (hden : 0 < den)
    {v : Binary64} : IsQuantile xs num den v ↔ IsRank xs (xs.length * num / den) v := by
  have hcount : ∀ c, xs.length * num < den * c ↔ xs.length * num / den < c := fun c => by
    rw [Nat.div_lt_iff_lt_mul hden, Nat.mul_comm den]
  simp only [IsQuantile, IsRank, hcount]

/-- Every sample has itself at or below it. -/
theorem countP_totalLe_pos {xs : List Binary64} {w : Binary64} (hw : w ∈ xs) :
    0 < xs.countP (totalLe · w) :=
  List.countP_pos_iff.2 ⟨w, hw, totalLe_refl w⟩

/-- The least sample is the sample of rank `0`. -/
theorem isLeastSample_iff_isRank {xs : List Binary64} {v : Binary64} :
    IsLeastSample xs v ↔ IsRank xs 0 v := by
  constructor
  · rintro ⟨hv, hleast⟩
    exact ⟨hv, countP_totalLe_pos hv, fun w hw _ => hleast w hw⟩
  · rintro ⟨hv, -, hleast⟩
    exact ⟨hv, fun w hw => hleast w hw (countP_totalLe_pos hw)⟩

/-- The greatest sample is the sample of rank `n - 1`: all `n` samples are at or below it. -/
theorem isGreatestSample_iff_isRank {xs : List Binary64} {v : Binary64} :
    IsGreatestSample xs v ↔ IsRank xs (xs.length - 1) v := by
  -- of a non-empty list, more than `n - 1` samples at or below `w` is all of them
  have hall : ∀ w, 0 < xs.length →
      (xs.length - 1 < xs.countP (totalLe · w) ↔ ∀ y ∈ xs, totalLe y w = true) := by
    intro w hn
    rw [← List.countP_eq_length]
    have := List.countP_le_length (p := (totalLe · w)) (l := xs)
    constructor <;> intro <;> omega
  constructor
  · rintro ⟨hv, hgreatest⟩
    have hn := List.length_pos_of_mem hv
    exact ⟨hv, (hall v hn).2 hgreatest, fun w _ hw => (hall w hn).1 hw v hv⟩
  · rintro ⟨hv, hcount, -⟩
    exact ⟨hv, (hall v (List.length_pos_of_mem hv)).1 hcount⟩

end Latency

end ClusterSweep
