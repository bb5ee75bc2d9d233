import Mathlib
import ClusterSweep.Proofs.ReduceAccounting

/-!
# A throughput table is the stable sort of its rows

A table built by pushing rows one by one into the empty table (`Table.ofRows`) holds exactly the
merge sort of the rows by client count (`ofRows_stable_sort`).  Both lists are sorted by client
count and keep the order of the rows of each count (`Table.ofRows_spec`, `filter_mergeSort`),
and two lists sorted by count are equal when their rows of each count are
(`eq_of_filter_eq`): each has at its head a row of the least count, the first one that came.

`Table.push` finds the place of a new row by binary search, which finds the end of the rows with
at most the new count only on a table sorted by count.  The table is sorted before every push,
so the search puts each row after the rows already there with at most its count.
-/

namespace ClusterSweep.Throughput

namespace Table

/-- Rows sorted by client count, in merge sort's order. -/
def byClients (a b : Row) : Bool := a.clients ≤ b.clients

/-- A row of one list is a row of the other when their rows of each count agree. -/
theorem mem_of_filter_eq {l₁ l₂ : List Row}
    (h : ∀ k, l₁.filter (·.clients == k) = l₂.filter (·.clients == k)) {r : Row} (hr : r ∈ l₁) :
    r ∈ l₂ := by
  have hk : r ∈ l₁.filter (·.clients == r.clients) := List.mem_filter.2 ⟨hr, by simp⟩
  rw [h] at hk
  exact (List.mem_filter.1 hk).1

/-- Two lists sorted by client count are equal when their rows of each count are. -/
theorem eq_of_filter_eq {l₁ l₂ : List Row} (h₁ : ClientsSorted l₁) (h₂ : ClientsSorted l₂)
    (h : ∀ k, l₁.filter (·.clients == k) = l₂.filter (·.clients == k)) : l₁ = l₂ := by
  induction l₁ generalizing l₂ with
  | nil =>
    cases l₂ with
    | nil => rfl
    | cons b l₂ => simpa using h b.clients
  | cons a l₁ ih =>
    cases l₂ with
    | nil => simpa using h a.clients
    | cons b l₂ =>
      obtain ⟨ha, h₁'⟩ := List.pairwise_cons.1 h₁
      obtain ⟨hb, h₂'⟩ := List.pairwise_cons.1 h₂
      -- each head is a row of the other list, so neither count is below the other
      have hba : b.clients ≤ a.clients := by
        rcases List.mem_cons.1 (mem_of_filter_eq h List.mem_cons_self) with rfl | hin
        · exact le_rfl
        · exact hb a hin
      have hab : a.clients ≤ b.clients := by
        rcases List.mem_cons.1 (mem_of_filter_eq (fun k => (h k).symm) List.mem_cons_self)
          with rfl | hin
        · exact le_rfl
        · exact ha b hin
      -- the rows of the heads' count start with the heads
      have hhead : a = b := by
        have hk := h a.clients
        rw [List.filter_cons_of_pos (by simp), List.filter_cons_of_pos (by simp; omega)] at hk
        exact (List.cons.inj hk).1
      subst hhead
      refine congrArg (a :: ·) (ih h₁' h₂' fun k => ?_)
      by_cases hk : a.clients = k <;> simpa [List.filter_cons, hk] using h k

/-- Merge sort keeps the order of the rows of each client count. -/
theorem filter_mergeSort (rows : List Row) (k : ℕ) :
    (rows.mergeSort byClients).filter (·.clients == k) = rows.filter (·.clients == k) := by
  have htrans : ∀ a b c, byClients a b → byClients b c → byClients a c := by
    simp only [byClients, decide_eq_true_eq]
    intro a b c
    exact le_trans
  have htotal : ∀ a b, (byClients a b || byClients b a) = true := by
    simp only [byClients, Bool.or_eq_true, decide_eq_true_eq]
    intro a b
    exact le_total _ _
  -- the rows of count `k` are sorted already, so they stay a sublist of the sorted rows
  have hsorted : (rows.filter (·.clients == k)).Pairwise fun a b => byClients a b :=
    List.pairwise_of_forall_mem_list fun a ha b hb => by
      simp only [List.mem_filter, beq_iff_eq] at ha hb
      simp [byClients, ha.2, hb.2]
  have hsub := (List.sublist_mergeSort htrans htotal hsorted List.filter_sublist).filter
    (·.clients == k)
  simp only [List.filter_filter, Bool.and_self] at hsub
  have hlen := ((List.mergeSort_perm rows byClients).filter (·.clients == k)).length_eq
  exact (hsub.eq_of_length hlen.symm).symm

/-- The table of rows pushed in order is their merge sort by client count. -/
theorem ofRows_eq_mergeSort (rows : List Row) : (ofRows rows).points = rows.mergeSort byClients := by
  obtain ⟨hsorted, -, hfilter⟩ := ofRows_spec rows
  have hmerge : ClientsSorted (rows.mergeSort byClients) := by
    have := @List.pairwise_mergeSort _ byClients (by simp [byClients]; omega)
      (by simp [byClients]; omega) rows
    simp only [byClients, decide_eq_true_eq] at this
    exact this
  exact eq_of_filter_eq hsorted hmerge fun k => (hfilter k).trans (filter_mergeSort rows k).symm

/-- Before a row is pushed, the table of the rows before it is sorted, and the binary search
puts the row after the rows already there with at most its client count. -/
theorem partitionPoint_ofRows (pre : List Row) (c : ℕ) :
    ClientsSorted (ofRows pre).points ∧
      partitionPoint (·.clients ≤ c) (ofRows pre).points = pre.countP (·.clients ≤ c) := by
  obtain ⟨hsorted, hperm, -⟩ := ofRows_spec pre
  exact ⟨hsorted, (partitionPoint_eq_countP (ClientsSorted.partitioned hsorted)).trans
    (hperm.countP_eq _)⟩

/-- Pushing rows one by one into the empty table sorts them stably by client count: the table is
their merge sort, so it holds each row once, by increasing count, the rows of one count in the
order they came.  Before every push the table is sorted, which is what the binary search of the
push needs to put the row after the rows with at most its count. -/
theorem ofRows_stable_sort (rows : List Row) :
    (ofRows rows).points = rows.mergeSort (fun a b => a.clients ≤ b.clients) ∧
    (ofRows rows).points.Perm rows ∧ ClientsSorted (ofRows rows).points ∧
    (∀ k, (ofRows rows).points.filter (·.clients == k) = rows.filter (·.clients == k)) ∧
    ∀ pre r post, rows = pre ++ r :: post →
      ClientsSorted (ofRows pre).points ∧
      partitionPoint (·.clients ≤ r.clients) (ofRows pre).points =
        pre.countP (·.clients ≤ r.clients) := by
  obtain ⟨hsorted, hperm, hfilter⟩ := ofRows_spec rows
  exact ⟨ofRows_eq_mergeSort rows, hperm, hsorted, hfilter,
    fun pre r _ _ => partitionPoint_ofRows pre r.clients⟩

/-- The rows of the table test, pushed with counts 8, 1 and 4: the second is pushed into a table
of one row with more clients, at the front. -/
theorem ofRows_stable_sort_eight_one_four :
    [⟨8, .zero⟩, ⟨1, .zero⟩, ⟨4, .zero⟩] = ([⟨8, .zero⟩] : List Row) ++ ⟨1, .zero⟩ :: [⟨4, .zero⟩] ∧
    ClientsSorted (ofRows [⟨8, .zero⟩]).points ∧
      partitionPoint (·.clients ≤ 1) (ofRows [⟨8, .zero⟩]).points = 0 :=
  ⟨rfl, (ofRows_stable_sort [⟨8, .zero⟩, ⟨1, .zero⟩, ⟨4, .zero⟩]).2.2.2.2 [⟨8, .zero⟩] ⟨1, .zero⟩
    [⟨4, .zero⟩] rfl⟩

end Table

end ClusterSweep.Throughput
