/-!
# Client topology

A run with `c` concurrent clients starts `p` benchmark processes of `t` threads each, with
`p · t = c`.  The thread count is the first of `4, 3, 2, 1` that divides `c`, which keeps the
number of processes small; `1` always divides, so every count has a topology
(`resolve_clients`).  The thread count is the greatest divisor of `c` that is at most four
(`threads_greatest`), so no split of `c` into at most four threads per process needs fewer
processes (`resolve_spec`).
-/

namespace ClusterSweep

/-- How the clients of one run are spread over benchmark processes. -/
structure Topology where
  /-- Benchmark processes. -/
  processes : Nat
  /-- Client threads in each process. -/
  threadsPerProcess : Nat
  deriving DecidableEq, Repr

namespace Topology

/-- Threads per process, most preferred first. -/
def threadPreference : List Nat := [4, 3, 2, 1]

/-- The topology of `clients` concurrent clients. -/
def resolve (clients : Nat) : Topology :=
  let threads := (threadPreference.find? (fun t => clients % t == 0)).getD 1
  ⟨clients / threads, threads⟩

/-- The number of clients the topology runs. -/
def clients (t : Topology) : Nat := t.processes * t.threadsPerProcess

/-- The topology written as `processes x threads`. -/
def display (t : Topology) : String :=
  toString t.processes ++ "x" ++ toString t.threadsPerProcess

/-- The thread count of a topology is one of the preferred counts and divides the clients. -/
theorem resolve_threads (c : Nat) :
    (resolve c).threadsPerProcess ∈ threadPreference ∧ c % (resolve c).threadsPerProcess = 0 := by
  unfold resolve threadPreference
  by_cases h4 : c % 4 = 0
  · simp [List.find?, h4]
  have b4 : (c % 4 == 0) = false := by simp [h4]
  by_cases h3 : c % 3 = 0
  · simp [List.find?, b4, h3]
  have b3 : (c % 3 == 0) = false := by simp [h3]
  by_cases h2 : c % 2 = 0
  · simp [List.find?, b4, b3, h2]
  have b2 : (c % 2 == 0) = false := by simp [h2]
  simp [List.find?, b4, b3, b2, Nat.mod_one]

/-- A topology runs exactly the clients it was resolved for. -/
theorem resolve_clients (c : Nat) : (resolve c).clients = c := by
  have ⟨_, hd⟩ := resolve_threads c
  unfold clients
  exact Nat.div_mul_cancel (Nat.dvd_of_mod_eq_zero hd)

/-- The thread count is the largest divisor of the clients of at most four. -/
theorem threads_greatest (c t : Nat) (hd : t ∣ c) (ht : t ≤ 4) :
    t ≤ (resolve c).threadsPerProcess := by
  unfold resolve threadPreference
  by_cases h4 : c % 4 = 0
  · simp [List.find?, h4]; omega
  have b4 : (c % 4 == 0) = false := by simp [h4]
  by_cases h3 : c % 3 = 0
  · simp [List.find?, b4, h3]
    rcases hd with ⟨k, rfl⟩
    have : t ≠ 4 := by rintro rfl; simp [Nat.mul_mod_right] at h4
    omega
  have b3 : (c % 3 == 0) = false := by simp [h3]
  by_cases h2 : c % 2 = 0
  · simp [List.find?, b4, b3, h2]
    rcases hd with ⟨k, rfl⟩
    have : t ≠ 4 := by rintro rfl; simp [Nat.mul_mod_right] at h4
    have : t ≠ 3 := by rintro rfl; simp [Nat.mul_mod_right] at h3
    omega
  have b2 : (c % 2 == 0) = false := by simp [h2]
  simp [List.find?, b4, b3, b2, Nat.mod_one]
  rcases hd with ⟨k, rfl⟩
  have : t ≠ 4 := by rintro rfl; simp [Nat.mul_mod_right] at h4
  have : t ≠ 3 := by rintro rfl; simp [Nat.mul_mod_right] at h3
  have : t ≠ 2 := by rintro rfl; simp [Nat.mul_mod_right] at h2
  omega

/-- The topology of `c` clients: threads are the first of `4, 3, 2, 1` dividing `c`, found without
the fallback; processes are `c` divided by them, they run exactly `c` clients, and no way of
writing `c` as processes times at most four threads has fewer processes. -/
theorem resolve_spec (c : Nat) :
    (∃ t, threadPreference.find? (fun t => c % t == 0) = some t ∧
      (resolve c).threadsPerProcess = t) ∧
    (resolve c).processes = c / (resolve c).threadsPerProcess ∧
    (resolve c).threadsPerProcess ∈ threadPreference ∧
    (resolve c).threadsPerProcess ∣ c ∧
    (resolve c).clients = c ∧
    (∀ t, t ∣ c → t ≤ 4 → t ≤ (resolve c).threadsPerProcess) ∧
    (∀ p t, c = p * t → t ≤ 4 → (resolve c).processes ≤ p) := by
  have ⟨hmem, hmod⟩ := resolve_threads c
  refine ⟨?_, rfl, hmem, Nat.dvd_of_mod_eq_zero hmod, resolve_clients c,
    threads_greatest c, ?_⟩
  · have hs : (threadPreference.find? (fun t => c % t == 0)).isSome := by
      rw [List.find?_isSome]
      exact ⟨1, by simp [threadPreference], by simp [Nat.mod_one]⟩
    obtain ⟨t, ht⟩ := Option.isSome_iff_exists.mp hs
    refine ⟨t, ht, ?_⟩
    simp [resolve, ht]
  · intro p t hc ht
    rcases Nat.eq_zero_or_pos t with h0 | hpos
    · subst h0
      simp at hc
      subst hc
      simp [resolve]
    · have hle := threads_greatest c t ⟨p, by rw [hc, Nat.mul_comm]⟩ ht
      show c / (resolve c).threadsPerProcess ≤ p
      calc c / (resolve c).threadsPerProcess ≤ c / t := Nat.div_le_div_left hle hpos
        _ = p := by rw [hc, Nat.mul_div_cancel _ hpos]

end Topology

end ClusterSweep
