import ClusterSweep.Throughput.Table

/-!
# The partition point found by halving

`partitionPoint p xs` asks `p` of one element per round, halving a window over `xs` until one
element is left, and never stops early: how often it asks depends on the length of `xs` alone.
Its answer means something only when `xs` is `Partitioned` by `p`, every element that satisfies
`p` before every element that fails it.  Then the elements satisfying `p` are exactly those
before the end of the leading run `xs.takeWhile p` (`getElem_iff_lt_length_takeWhile`), so the
element asked about tells on which side of that end the window's middle lies.  The loop keeps
the end inside its window (`partitionSearch_spec`), and the last element decides between its
two sides: the search returns the length of the leading run (`partitionPoint_eq_length_takeWhile`),
which is also the number of elements satisfying `p` (`partitionPoint_eq_countP`).
-/

namespace ClusterSweep.Throughput

variable {α : Type} {p : α → Bool} {xs : List α}

/-- Every element satisfying `p` comes before every element failing it. -/
def Partitioned (p : α → Bool) (xs : List α) : Prop :=
  xs.Pairwise fun a b => p b → p a

/-- In a partitioned list, the elements satisfying `p` are those before the end of the leading
run. -/
theorem getElem_iff_lt_length_takeWhile (h : Partitioned p xs) {i : Nat} (hi : i < xs.length) :
    p xs[i] ↔ i < (xs.takeWhile p).length := by
  induction xs generalizing i with
  | nil => simp at hi
  | cons a xs ih =>
    obtain ⟨ha, hxs⟩ := List.pairwise_cons.1 h
    cases i with
    | zero => by_cases hpa : p a <;> simp [hpa]
    | succ j =>
      have hj : j < xs.length := by simpa using hi
      by_cases hpa : p a
      · simp [hpa, ih hxs hj]
      · -- past a head that fails `p`, nothing satisfies it
        have hnot : ¬ p xs[j] := fun hpj => hpa (ha _ (List.getElem_mem hj) hpj)
        simp [hpa, hnot]

/-- The element a round asks about, when it lies in the list. -/
theorem any_getElem?_iff (h : Partitioned p xs) {i : Nat} (hi : i < xs.length) :
    xs[i]?.any p ↔ i < (xs.takeWhile p).length := by
  rw [List.getElem?_eq_getElem hi, Option.any_some]
  exact getElem_iff_lt_length_takeWhile h hi

/-- The halving loop keeps the end of the leading run in its window `[base, base + size]` and
ends on the element just before it or just after it. -/
theorem partitionSearch_spec (h : Partitioned p xs) (base size : Nat) (hsize : 0 < size)
    (hwin : base + size ≤ xs.length) (hlo : base ≤ (xs.takeWhile p).length)
    (hhi : (xs.takeWhile p).length ≤ base + size) :
    partitionSearch p xs base size < xs.length ∧
      partitionSearch p xs base size ≤ (xs.takeWhile p).length ∧
      (xs.takeWhile p).length ≤ partitionSearch p xs base size + 1 := by
  fun_induction partitionSearch p xs base size with
  | case1 base size hmore mid ih =>
    have hmid : mid = base + size / 2 := rfl
    have hask := any_getElem?_iff h (i := mid) (by omega)
    by_cases hp : xs[mid]?.any p
    · -- the middle lies before the end: the window moves up to start there
      rw [dif_pos hp] at ih
      rw [if_pos hp]
      exact ih (by omega) (by omega) (by have := hask.1 hp; omega) (by omega)
    · -- the middle lies at or past the end: the window keeps its start
      rw [dif_neg hp] at ih
      rw [if_neg hp]
      have hend : (xs.takeWhile p).length ≤ mid := Nat.le_of_not_lt fun hlt => hp (hask.2 hlt)
      exact ih (by omega) (by omega) hlo (by omega)
  | case2 base size hone =>
    refine ⟨by omega, hlo, by omega⟩

/-- On a partitioned list the search finds the end of the leading run. -/
theorem partitionPoint_eq_length_takeWhile (h : Partitioned p xs) :
    partitionPoint p xs = (xs.takeWhile p).length := by
  unfold partitionPoint
  cases xs with
  | nil => rfl
  | cons a as =>
    simp only [List.isEmpty_cons, Bool.false_eq_true, if_false]
    obtain ⟨hlt, hle, hge⟩ := partitionSearch_spec h 0 (a :: as).length (by simp) (by omega)
      (Nat.zero_le _)
      (by rw [Nat.zero_add]; exact (List.takeWhile_sublist p).length_le)
    have hask := any_getElem?_iff h hlt
    -- the last element of the window decides the side
    split
    · rename_i hp
      have := hask.1 hp
      omega
    · rename_i hp
      have : ¬ partitionSearch p (a :: as) 0 (a :: as).length < ((a :: as).takeWhile p).length :=
        fun hlt' => hp (hask.2 hlt')
      omega

theorem take_length_takeWhile (xs : List α) : xs.take (xs.takeWhile p).length = xs.takeWhile p := by
  induction xs with
  | nil => rfl
  | cons a xs ih => by_cases hpa : p a <;> simp [hpa, ih]

theorem drop_length_takeWhile (xs : List α) : xs.drop (xs.takeWhile p).length = xs.dropWhile p := by
  induction xs with
  | nil => rfl
  | cons a xs ih => by_cases hpa : p a <;> simp [hpa, ih]

/-- On a partitioned list, the search splits it at the end of the leading run. -/
theorem take_partitionPoint (h : Partitioned p xs) : xs.take (partitionPoint p xs) = xs.takeWhile p := by
  rw [partitionPoint_eq_length_takeWhile h, take_length_takeWhile]

theorem drop_partitionPoint (h : Partitioned p xs) : xs.drop (partitionPoint p xs) = xs.dropWhile p := by
  rw [partitionPoint_eq_length_takeWhile h, drop_length_takeWhile]

/-- In a partitioned list the leading run holds every element satisfying `p`. -/
theorem length_takeWhile_eq_countP (h : Partitioned p xs) :
    (xs.takeWhile p).length = xs.countP p := by
  induction xs with
  | nil => rfl
  | cons a xs ih =>
    obtain ⟨ha, hxs⟩ := List.pairwise_cons.1 h
    by_cases hpa : p a
    · simp [hpa, ih hxs]
    · -- past a head that fails `p`, nothing satisfies it
      have hnone : xs.countP p = 0 :=
        List.countP_eq_zero.2 fun b hb hpb => hpa (ha b hb hpb)
      simp [hpa, hnone]

/-- On a partitioned list the search counts the elements satisfying `p`. -/
theorem partitionPoint_eq_countP (h : Partitioned p xs) : partitionPoint p xs = xs.countP p :=
  (partitionPoint_eq_length_takeWhile h).trans (length_takeWhile_eq_countP h)

end ClusterSweep.Throughput
