import Mathlib
import ClusterSweep.Proofs.SweepRun
import ClusterSweep.Proofs.ReadingOrder

/-!
# Where a quota overflows

A shared total `T` is divided among the `c` clients of a run: each issues `T / c` requests and the
run reports `T`, so the requests left out, `T - c * (T / c)`, are fewer than `c`, and the requests
issued never exceed the total, a 64-bit count (`quota_total`, `total_remainder_lt`).  A
per-client count `p` is multiplied by the clients, and the product is the one step of a quota
that can leave its 64-bit word (`quota_perClient_eq_ok_iff`, `quota_eq_error_iff`).

The plan resolves a point's quota only when its shape passes the rules; a point that breaks one
is skipped whatever the target (`planPoint_of_invalid`).  So the plan holds an overflow exactly
when the target is per client and some valid point's count times its clients passes
`2^64 - 1`, and every overflow it holds is a multiplication's
(`quota_overflows_only_per_client`).
-/

namespace ClusterSweep

namespace OpsTarget

/-- A shared total is always split: each client issues its share, the run reports the total. -/
theorem quota_total (T c : ℕ) : (total T).quota c = .ok ⟨T / c, T⟩ := rfl

/-- The clients of a shared total issue no more than it, and fewer than one request per client
less. -/
theorem total_remainder_lt (T : ℕ) {c : ℕ} (hc : 0 < c) : c * (T / c) ≤ T ∧ T - c * (T / c) < c := by
  have hdiv := Nat.div_add_mod T c
  have hmod := Nat.mod_lt T hc
  omega

theorem checkedMul_eq_error_iff {bound a b : ℕ} {o : Overflow} :
    checkedMul bound a b = .error o ↔ bound < a * b ∧ o = .mul := by
  unfold checkedMul
  split
  · simp only [reduceCtorEq, false_iff, not_and]
    omega
  · simp_all [eq_comm]

/-- A per-client count is given to every client, and the run reports it times the clients. -/
theorem quota_perClient (p c : ℕ) : (perClient p).quota c = Quota.mk p <$> checkedMul u64Max p c := by
  simp only [quota]
  cases checkedMul u64Max p c <;> rfl

theorem quota_perClient_eq_ok_iff {p c : ℕ} {q : Quota} :
    (perClient p).quota c = .ok q ↔ p * c ≤ u64Max ∧ q = ⟨p, p * c⟩ := by
  rw [quota_perClient, map_eq_ok_iff]
  constructor
  · rintro ⟨g, hg, rfl⟩
    obtain ⟨hle, rfl⟩ := checkedMul_ok_iff.1 hg
    exact ⟨hle, rfl⟩
  · rintro ⟨hle, rfl⟩
    exact ⟨p * c, checkedMul_ok_iff.2 ⟨hle, rfl⟩, rfl⟩

/-- Only a per-client count overflows, by a multiplication past 64 bits. -/
theorem quota_eq_error_iff {ops : OpsTarget} {c : ℕ} {o : Overflow} :
    ops.quota c = .error o ↔ ∃ p, ops = perClient p ∧ u64Max < p * c ∧ o = .mul := by
  cases ops with
  | total T => simp [quota]
  | perClient p => simp [quota_perClient, map_eq_error_iff, checkedMul_eq_error_iff]

end OpsTarget

theorem RunConfig.resolve_eq_error_iff {p : Point} {ops : OpsTarget} {root : String}
    {o : Overflow} : RunConfig.resolve p ops root = .error o ↔ ops.quota p.clients = .error o := by
  unfold RunConfig.resolve
  cases ops.quota p.clients <;> simp [bind, Except.bind, pure, Except.pure]

namespace Sweep

variable (sw : Sweep)

/-- A point that breaks a rule is skipped with it, whatever the target: its quota is never
resolved. -/
theorem planPoint_of_invalid {p : Point} {v : Violation} (hv : p.shape.validate = some v) :
    sw.planPoint p = .ok (.skip p v) := by
  simp only [planPoint, hv]
  rfl

/-- A point's plan overflows exactly when it passes the rules and its quota overflows. -/
theorem planPoint_eq_error_iff {p : Point} {o : Overflow} :
    sw.planPoint p = .error o ↔ p.shape.validate = none ∧ sw.options.ops.quota p.clients = .error o := by
  cases hv : p.shape.validate with
  | some v => simp [sw.planPoint_of_invalid hv]
  | none =>
    simp only [planPoint, hv, true_and]
    rw [map_eq_error_iff, RunConfig.resolve_eq_error_iff]

/-- The overflows the plan holds are those of the quotas of its valid points. -/
theorem error_mem_plan_iff {o : Overflow} :
    Except.error o ∈ sw.plan ↔
      ∃ pt ∈ sw.space.points, pt.shape.validate = none ∧ sw.options.ops.quota pt.clients = .error o := by
  simp only [plan, List.mem_map, planPoint_eq_error_iff]

end Sweep

/-- The quota of a run, and where the plan of a sweep overflows.  A shared total `T` among `c`
clients gives each `T / c` requests and reports `T`; the requests left out are fewer than `c`,
and the requests issued, `c * (T / c)`, never exceed the total, so they fit its word.  A
per-client count `p` gives `p` requests and reports `p * c`, and overflows exactly when
`p * c` passes `2^64 - 1`.  The plan of a sweep holds an overflow, where consuming it stops,
exactly when the target is per client and a point whose shape passes the rules has too many
clients for it; every overflow is a multiplication's, and a point that breaks a rule is skipped
without its quota. -/
theorem quota_overflows_only_per_client :
    (∀ T c, 0 < c → (OpsTarget.total T).quota c = .ok ⟨T / c, T⟩ ∧
      c * (T / c) ≤ T ∧ T - c * (T / c) < c) ∧
    (∀ p c, ((OpsTarget.perClient p).quota c = .ok ⟨p, p * c⟩ ↔ p * c ≤ u64Max) ∧
      ((OpsTarget.perClient p).quota c = .error .mul ↔ u64Max < p * c)) ∧
    ∀ sw : Sweep,
      ((∃ o, Except.error o ∈ sw.plan) ↔ ∃ p, sw.options.ops = .perClient p ∧
        ∃ pt ∈ sw.space.points, pt.shape.validate = none ∧ u64Max < p * pt.clients) ∧
      (∀ o, Except.error o ∈ sw.plan → o = .mul) ∧
      ∀ pt ∈ sw.space.points, ∀ v, pt.shape.validate = some v → sw.planPoint pt = .ok (.skip pt v) := by
  refine ⟨fun T c hc => ⟨OpsTarget.quota_total T c, OpsTarget.total_remainder_lt T hc⟩,
    fun p c => ⟨?_, ?_⟩, fun sw => ⟨?_, ?_, fun pt _ v hv => sw.planPoint_of_invalid hv⟩⟩
  · simp [OpsTarget.quota_perClient_eq_ok_iff]
  · simp [OpsTarget.quota_eq_error_iff]
  · -- an overflow of the plan is the quota overflow of a valid point
    simp only [Sweep.error_mem_plan_iff, OpsTarget.quota_eq_error_iff]
    constructor
    · rintro ⟨o, pt, hpt, hv, p, hops, hover, -⟩
      exact ⟨p, hops, pt, hpt, hv, hover⟩
    · rintro ⟨p, hops, pt, hpt, hv, hover⟩
      exact ⟨.mul, pt, hpt, hv, p, hops, hover, rfl⟩
  · intro o ho
    obtain ⟨pt, -, -, hq⟩ := (sw.error_mem_plan_iff).1 ho
    obtain ⟨-, -, -, rfl⟩ := OpsTarget.quota_eq_error_iff.1 hq
    rfl

/-- The split of the remainder test: a total of 10 among 3 clients, 3 requests each. -/
theorem quota_total_ten_among_three :
    (OpsTarget.total 10).quota 3 = .ok ⟨3, 10⟩ ∧ 3 * 3 ≤ 10 ∧ 10 - 3 * 3 < 3 :=
  quota_overflows_only_per_client.1 10 3 (by decide)

end ClusterSweep
