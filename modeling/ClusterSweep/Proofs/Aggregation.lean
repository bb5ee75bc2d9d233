import Mathlib
import ClusterSweep.Throughput.Summary

/-!
# The throughput of a run

`Throughput.aggregate` sums the operations of all clients in a 64-bit word and divides the sum by
the longest run time.  Its outcome is fixed by two quantities of the summaries:

* the sum of the operations: adding stops the program exactly when that sum leaves the word
  (`foldlM_checkedAdd`), whatever the run times, since the sum comes first;
* the longest run time (`Throughput.IsLongestTime`): one of the times, no NaN, and at or above
  every time that is no NaN.  IEEE `max` lets a NaN give way and, from `+0` on, keeps the higher
  number in the total order (`Binary64.max_eq_of_orderKey`), so folding it over the times ends at
  the highest of `+0` and the times that are no NaN (`Binary64.foldl_max_isTop`).  That is `+0`
  when no time is positive, and the longest time, which is then unique, otherwise.

No positive run time means no throughput; otherwise the throughput is the sum over the longest
time, and neither depends on the order of the summaries (`Throughput.aggregate_outcome`).
-/

namespace ClusterSweep

/-- Adding counts one after another in a word stops exactly when their total leaves it. -/
theorem foldlM_checkedAdd {α : Type} (bound : Nat) (f : α → Nat) :
    ∀ (l : List α) (a : Nat), a ≤ bound →
      l.foldlM (fun acc x => checkedAdd bound acc (f x)) a =
        if a + (l.map f).sum ≤ bound then .ok (a + (l.map f).sum) else .error .add
  | [], a, ha => by simp [ha, pure, Except.pure]
  | x :: l, a, ha => by
    rw [List.foldlM_cons, checkedAdd]
    by_cases hx : a + f x ≤ bound
    · rw [if_pos hx]
      simp only [bind, Except.bind]
      rw [foldlM_checkedAdd bound f l (a + f x) hx]
      simp only [List.map_cons, List.sum_cons, Nat.add_assoc]
    · rw [if_neg hx, if_neg (by simp only [List.map_cons, List.sum_cons]; omega)]
      rfl

namespace Binary64

theorem orderKey_zero : zero.orderKey = Nat.pow 2 63 := by decide

theorem isNaN_zero : zero.isNaN = false := by decide

theorem isZero_zero : zero.isZero = true := by decide

/-- The two zeros lie at `2^63 - 1` and `2^63` in the total order, so at or below `+0`. -/
theorem orderKey_le_of_isZero {x : Binary64} (h : x.isZero = true) :
    x.orderKey ≤ Nat.pow 2 63 := by
  have hw := word_lt x
  have h63 : Nat.pow 2 63 = 9223372036854775808 := rfl
  have h64 : Nat.pow 2 64 = 18446744073709551616 := rfl
  simp only [isZero, orderKey, sign, h63, h64, beq_iff_eq, decide_eq_true_eq] at h hw ⊢
  split_ifs <;> omega

/-- Above `+0` in the total order lies no zero. -/
theorem isZero_eq_false_of_lt {x : Binary64} (h : Nat.pow 2 63 < x.orderKey) : x.isZero = false := by
  cases hz : x.isZero with
  | false => rfl
  | true => exact absurd (orderKey_le_of_isZero hz) (by omega)

/-- On numbers that are no NaN, IEEE `≤` is the total order, the two zeros being equal. -/
theorem le_eq_true_iff {x y : Binary64} (hx : x.isNaN = false) (hy : y.isNaN = false) :
    le x y = true ↔ (x.isZero = true ∧ y.isZero = true) ∨ x.orderKey ≤ y.orderKey := by
  simp [le, hx, hy]

/-- IEEE `≤ +0` for a number that is no NaN: it lies at or below `+0` in the total order. -/
theorem le_zero_iff {r : Binary64} (hr : r.isNaN = false) :
    le r zero = true ↔ r.orderKey ≤ Nat.pow 2 63 := by
  simp only [le, hr, isNaN_zero, isZero_zero, orderKey_zero, Bool.not_false, Bool.true_and,
    Bool.and_true, Bool.or_eq_true, decide_eq_true_eq]
  constructor
  · rintro (hz | hk)
    · exact orderKey_le_of_isZero hz
    · exact hk
  · exact .inr

/-- A number is positive when it is no NaN and lies above `+0` in the total order. -/
theorem lt_zero_iff {t : Binary64} :
    lt zero t = true ↔ t.isNaN = false ∧ Nat.pow 2 63 < t.orderKey := by
  simp only [lt, isNaN_zero, isZero_zero, orderKey_zero, Bool.not_false, Bool.true_and,
    Bool.and_eq_true, Bool.not_eq_true', decide_eq_true_eq]
  constructor
  · rintro ⟨⟨hnan, -⟩, hkey⟩
    exact ⟨hnan, hkey⟩
  · rintro ⟨hnan, hkey⟩
    exact ⟨⟨hnan, isZero_eq_false_of_lt hkey⟩, hkey⟩

/-- From a number at or above `+0` that is no NaN, IEEE `max` with a number that is no NaN keeps
the higher one in the total order. -/
theorem max_eq_of_orderKey {acc t : Binary64} (hacc : acc.isNaN = false)
    (hpos : Nat.pow 2 63 ≤ acc.orderKey) (ht : t.isNaN = false) :
    max acc t = if acc.orderKey < t.orderKey then t else acc := by
  simp only [max, hacc, ht, Bool.false_eq_true, if_false]
  by_cases hlt : acc.orderKey < t.orderKey
  · -- `t` lies above `+0`, so it is no zero and IEEE `<` holds
    simp [lt, hacc, ht, isZero_eq_false_of_lt (Nat.lt_of_le_of_lt hpos hlt), hlt]
  · simp [lt, hlt]

/-- `r` is the highest, in the total order, of `acc` and the numbers of `ts` that are no NaN, and
one of them. -/
structure IsTop (acc : Binary64) (ts : List Binary64) (r : Binary64) : Prop where
  not_nan : r.isNaN = false
  start_le : acc.orderKey ≤ r.orderKey
  mem : r = acc ∨ r ∈ ts
  le : ∀ t ∈ ts, t.isNaN = false → t.orderKey ≤ r.orderKey

/-- One step of the fold: IEEE `max` from a number at or above `+0` that is no NaN ends at the
higher of it and `t`, a NaN `t` giving way. -/
theorem isTop_max {acc : Binary64} (hacc : acc.isNaN = false) (hpos : Nat.pow 2 63 ≤ acc.orderKey)
    (t : Binary64) : IsTop acc [t] (max acc t) := by
  cases ht : t.isNaN with
  | true =>
    have hmax : max acc t = acc := by simp [max, hacc, ht]
    rw [hmax]
    refine ⟨hacc, le_refl _, .inl rfl, fun u hu hun => ?_⟩
    rw [List.mem_singleton.1 hu, ht] at hun
    cases hun
  | false =>
    rw [max_eq_of_orderKey hacc hpos ht]
    by_cases hlt : acc.orderKey < t.orderKey
    · rw [if_pos hlt]
      refine ⟨ht, hlt.le, .inr (List.mem_singleton_self t), fun u hu _ => ?_⟩
      rw [List.mem_singleton.1 hu]
    · rw [if_neg hlt]
      refine ⟨hacc, le_refl _, .inl rfl, fun u hu _ => ?_⟩
      rw [List.mem_singleton.1 hu]
      omega

/-- A step of the fold, then the rest of it. -/
theorem IsTop.cons {acc t r' r : Binary64} {ts : List Binary64} (hstep : IsTop acc [t] r')
    (hrest : IsTop r' ts r) : IsTop acc (t :: ts) r := by
  obtain ⟨-, hle₁, hmem₁, hall₁⟩ := hstep
  obtain ⟨hnan, hle₂, hmem₂, hall₂⟩ := hrest
  refine ⟨hnan, hle₁.trans hle₂, ?_, ?_⟩
  · -- the result is the step's, which is `acc` or `t`, or one of `ts`
    rcases hmem₂ with hr | hr
    · rw [hr]
      rcases hmem₁ with h | h
      · exact .inl h
      · exact .inr (List.mem_cons.2 (.inl (List.mem_singleton.1 h)))
    · exact .inr (List.mem_cons_of_mem t hr)
  · rintro u (_ | ⟨_, hu⟩) hun
    · exact (hall₁ _ (List.mem_singleton_self _) hun).trans hle₂
    · exact hall₂ u hu hun

/-- Folding IEEE `max` from a number at or above `+0` that is no NaN ends at the highest of it and
the numbers that are no NaN. -/
theorem foldl_max_isTop : ∀ (ts : List Binary64) {acc : Binary64}, acc.isNaN = false →
    Nat.pow 2 63 ≤ acc.orderKey → IsTop acc ts (ts.foldl max acc)
  | [], acc, hacc, _ => ⟨hacc, le_refl _, .inl rfl, by simp⟩
  | t :: ts, acc, hacc, hpos => by
    -- the fold goes on from the step's result, still no NaN and at or above `+0`
    have hstep := isTop_max hacc hpos t
    rw [List.foldl_cons]
    exact hstep.cons (foldl_max_isTop ts hstep.not_nan (hpos.trans hstep.start_le))

end Binary64

namespace Throughput

open Binary64

/-- The longest run time of the summaries: one of their times, no NaN, and at or above every time
that is no NaN. -/
def IsLongestTime (l : List Summary) (M : Binary64) : Prop :=
  (∃ s ∈ l, s.totalTime = M) ∧ M.isNaN = false ∧
    ∀ s ∈ l, s.totalTime.isNaN = false → le s.totalTime M = true

/-- The run time a run's throughput divides by: IEEE `max` folded over the times from `+0`. -/
def longest (l : List Summary) : Binary64 :=
  l.foldl (fun acc s => Binary64.max acc s.totalTime) Binary64.zero

/-- The total operations of the summaries. -/
def opsSum (l : List Summary) : Nat := (l.map (·.totalOps)).sum

theorem longest_isTop (l : List Summary) : IsTop zero (l.map (·.totalTime)) (longest l) := by
  rw [longest, ← List.foldl_map]
  exact foldl_max_isTop _ isNaN_zero orderKey_zero.ge

/-- The throughput of a run: the sum of the operations, if it fits its word, over the longest
time, if that is positive. -/
theorem aggregate_eq (l : List Summary) :
    aggregate l =
      if opsSum l ≤ u64Max then
        .ok (if le (longest l) zero then .error .zeroDuration
          else .ok (div (ofNat (opsSum l)) (longest l)))
      else .error .add := by
  unfold aggregate longest opsSum
  rw [foldlM_checkedAdd u64Max (·.totalOps) l 0 (Nat.zero_le _), Nat.zero_add]
  by_cases hfit : (l.map (·.totalOps)).sum ≤ u64Max
  · simp only [if_pos hfit, bind, Except.bind]
    by_cases hle : le (l.foldl (fun acc s => Binary64.max acc s.totalTime) zero) zero = true
    · simp only [if_pos hle, pure, Except.pure]
    · simp only [if_neg hle, pure, Except.pure]
  · simp only [if_neg hfit]
    rfl

/-- The longest time is not positive exactly when no time is. -/
theorem le_longest_zero_iff (l : List Summary) :
    le (longest l) zero = true ↔ ∀ s ∈ l, lt zero s.totalTime = false := by
  obtain ⟨hnan, hstart, hmem, hall⟩ := longest_isTop l
  rw [orderKey_zero] at hstart
  rw [le_zero_iff hnan]
  constructor
  · -- every time that is no NaN lies at or below the longest, so at or below `+0`
    intro hle s hs
    cases hpos : lt zero s.totalTime with
    | false => rfl
    | true =>
      obtain ⟨hsn, hsk⟩ := lt_zero_iff.1 hpos
      have := hall s.totalTime (List.mem_map_of_mem hs) hsn
      omega
  · -- the longest is `+0` or one of the times, none of which lies above `+0`
    intro hnone
    rcases hmem with hr | hr
    · rw [hr, orderKey_zero]
    · obtain ⟨s, hs, hsL⟩ := List.mem_map.1 hr
      by_contra hk
      have hpos : lt zero s.totalTime = true := by
        rw [hsL]
        exact lt_zero_iff.2 ⟨hnan, by omega⟩
      rw [hnone s hs] at hpos
      cases hpos

/-- When no time is positive, the fold stays at `+0`. -/
theorem longest_eq_zero {l : List Summary} (h : ∀ s ∈ l, lt zero s.totalTime = false) :
    longest l = zero := by
  obtain ⟨hnan, hstart, -, -⟩ := longest_isTop l
  have hle := (le_zero_iff hnan).1 ((le_longest_zero_iff l).2 h)
  rw [orderKey_zero] at hstart
  exact orderKey_injective (by rw [orderKey_zero]; omega)

/-- When some time is positive, the fold ends at the longest time. -/
theorem isLongestTime_longest {l : List Summary} (hpos : ∃ s ∈ l, lt zero s.totalTime = true) :
    IsLongestTime l (longest l) ∧ lt zero (longest l) = true := by
  obtain ⟨hnan, hstart, hmem, hall⟩ := longest_isTop l
  obtain ⟨s, hs, hst⟩ := hpos
  obtain ⟨hsn, hsk⟩ := lt_zero_iff.1 hst
  have hk := hall s.totalTime (List.mem_map_of_mem hs) hsn
  have hlpos : lt zero (longest l) = true := lt_zero_iff.2 ⟨hnan, by omega⟩
  refine ⟨⟨?_, hnan, fun u hu hun => ?_⟩, hlpos⟩
  · rcases hmem with hr | hr
    · rw [hr, orderKey_zero] at hk
      omega
    · obtain ⟨u, hu, huL⟩ := List.mem_map.1 hr
      exact ⟨u, hu, huL⟩
  · simp [le, hun, hnan, hall u.totalTime (List.mem_map_of_mem hu) hun]

/-- Two longest times of summaries with a positive time are the same number. -/
theorem IsLongestTime.eq_longest {l : List Summary} {M : Binary64}
    (hpos : ∃ s ∈ l, lt zero s.totalTime = true) (hM : IsLongestTime l M) : M = longest l := by
  obtain ⟨⟨⟨s, hs, hsL⟩, hLn, hLle⟩, hlpos⟩ := isLongestTime_longest hpos
  obtain ⟨⟨u, hu, huM⟩, hMn, hMle⟩ := hM
  obtain ⟨-, hk⟩ := lt_zero_iff.1 hlpos
  -- each is at or above the other, and the fold's result is no zero
  have h₁ := hMle s hs (by rw [hsL]; exact hLn)
  have h₂ := hLle u hu (by rw [huM]; exact hMn)
  rw [hsL, le_eq_true_iff hLn hMn, isZero_eq_false_of_lt hk] at h₁
  rw [huM, le_eq_true_iff hMn hLn, isZero_eq_false_of_lt hk] at h₂
  simp only [Bool.false_eq_true, false_and, and_false, false_or] at h₁ h₂
  exact orderKey_injective (Nat.le_antisymm h₂ h₁)

/-- Reordering the summaries keeps the longest time. -/
theorem longest_perm {l l' : List Summary} (h : l.Perm l') : longest l = longest l' := by
  by_cases hpos : ∃ s ∈ l, lt zero s.totalTime = true
  · have hpos' : ∃ s ∈ l', lt zero s.totalTime = true :=
      let ⟨s, hs, hst⟩ := hpos
      ⟨s, h.subset hs, hst⟩
    obtain ⟨⟨⟨s, hs, hst⟩, hnan, hle⟩, -⟩ := isLongestTime_longest hpos'
    exact (IsLongestTime.eq_longest hpos ⟨⟨s, h.symm.subset hs, hst⟩, hnan,
      fun u hu => hle u (h.subset hu)⟩).symm
  · -- no time is positive: both folds stay at `+0`
    have hnone : ∀ {l₀ : List Summary}, l₀.Perm l → ∀ s ∈ l₀, lt zero s.totalTime = false :=
      fun hp s hs => Bool.eq_false_iff.2 fun hst => hpos ⟨s, hp.subset hs, hst⟩
    rw [longest_eq_zero (hnone (List.Perm.refl l)), longest_eq_zero (hnone h.symm)]

theorem opsSum_perm {l l' : List Summary} (h : l.Perm l') : opsSum l = opsSum l' :=
  (h.map _).sum_eq

/-- The throughput of a run.  Adding the operations stops the program exactly when their sum
leaves the 64-bit word, whatever the times.  Otherwise there is no throughput exactly when no time
is positive, NaN, negative times and zeros never counting; when one is, the throughput is the sum
over the longest time.  Reordering the summaries changes nothing. -/
theorem aggregate_outcome (l : List Summary) :
    (aggregate l = .error .add ↔ u64Max < (l.map (·.totalOps)).sum) ∧
    ((l.map (·.totalOps)).sum ≤ u64Max →
      (aggregate l = .ok (.error .zeroDuration) ↔ ∀ s ∈ l, lt zero s.totalTime = false) ∧
      ((∃ s ∈ l, lt zero s.totalTime = true) →
        (∃ M, IsLongestTime l M) ∧
        ∀ M, IsLongestTime l M →
          aggregate l = .ok (.ok (div (ofNat (l.map (·.totalOps)).sum) M)))) ∧
    ∀ l', l.Perm l' → aggregate l = aggregate l' := by
  refine ⟨?_, fun (hfit : opsSum l ≤ u64Max) => ⟨?_, fun hpos => ?_⟩, fun l' h => ?_⟩
  · rw [aggregate_eq]
    by_cases hfit : opsSum l ≤ u64Max
    · simp only [hfit, if_true, reduceCtorEq, false_iff, not_lt]
      exact hfit
    · simp only [hfit, if_false, true_iff]
      exact Nat.lt_of_not_le hfit
  · rw [aggregate_eq, if_pos hfit, ← le_longest_zero_iff]
    cases le (longest l) zero <;> simp
  · obtain ⟨hL, hLpos⟩ := isLongestTime_longest hpos
    -- the longest time is positive, so IEEE `≤ +0` fails for it
    have hnot : le (longest l) zero = false := by
      cases hle : le (longest l) zero with
      | false => rfl
      | true =>
        obtain ⟨s, hs, hst⟩ := hpos
        rw [(le_longest_zero_iff l).1 hle s hs] at hst
        cases hst
    refine ⟨⟨_, hL⟩, fun M hM => ?_⟩
    rw [hM.eq_longest hpos, aggregate_eq, if_pos hfit, hnot]
    rfl
  · rw [aggregate_eq, aggregate_eq, opsSum_perm h, longest_perm h]

end Throughput

end ClusterSweep
