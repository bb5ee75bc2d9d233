import Mathlib
import ClusterSweep.Execution
import ClusterSweep.Proofs.Enumeration

/-!
# What a sweep run does

`Sweep.run` visits the points of the space one after another.  The relation `Sweep.Visits`
states, point by point, what a visit does to the disk and to the runner's own state and what
outcome it reports:

* a point whose shape breaks a rule is reported skipped with the first rule it breaks, and
  nothing is touched;
* any other point is resolved, its output directory is created with its parents, and if that
  fails the point has failed and the runner is not consulted;
* otherwise the runner is handed the point's invocation exactly once, on the disk as the
  directory creation left it, and its answer is the outcome.

A runner is any stoppable computation on the disk and a state of its own; the statements hold
for every runner that answers instead of stopping the program (`Runner.Returns`).  Resolving a
point computes its quota, which can overflow: that stops the whole run at the first valid point
whose quota does not fit (`Sweep.run_stops_on_quota_overflow`), so the description of a whole
run needs every valid point's quota to fit (`Sweep.QuotasFit`).  Under those two conditions a run
returns a report listing every point of the space in order, one outcome each
(`Sweep.run_reports_every_point`).
-/

namespace ClusterSweep

/-! ## Stoppable computations -/

namespace Stopping

variable {ε σ α β : Type}

@[simp] theorem runFrom_pure (a : α) (s : σ) : (pure a : Stopping ε σ α).runFrom s = (.ok a, s) :=
  rfl

/-- A computation followed by another: the second starts where the first ended, unless the first
stopped. -/
theorem runFrom_bind (m : Stopping ε σ α) (f : α → Stopping ε σ β) (s : σ) :
    (m >>= f).runFrom s = match m.runFrom s with
      | (.ok a, s') => (f a).runFrom s'
      | (.error e, s') => (.error e, s') := by
  simp only [runFrom, ExceptT.run_bind, StateT.run_bind]
  rcases (ExceptT.run m).run s with ⟨_ | a, s'⟩ <;> rfl

@[simp] theorem runFrom_get (s : σ) : (get : Stopping ε σ σ).runFrom s = (.ok s, s) := rfl

@[simp] theorem runFrom_set (s t : σ) : (set t : Stopping ε σ PUnit).runFrom s = (.ok ⟨⟩, t) :=
  rfl

@[simp] theorem runFrom_ofExcept (x : Except ε α) (s : σ) :
    (MonadExcept.ofExcept x : Stopping ε σ α).runFrom s = (x, s) := by
  cases x <;> rfl

end Stopping

/-! ## Points, rules and reports -/

/-- The rules of a shape in the order they are checked: the servers must outnumber the
replicas, then cover the span. -/
theorem Shape.validate_eq (s : Shape) :
    s.validate = if s.servers ≤ s.replicas then some (.insufficientServers s.servers s.replicas)
      else if s.servers < s.serverSpan then some (.spanExceedsServers s.serverSpan s.servers)
      else none := by
  unfold Shape.validate Shape.rules Shape.enoughServers Shape.spanWithinServers
  by_cases h₁ : s.servers ≤ s.replicas <;> by_cases h₂ : s.servers < s.serverSpan <;>
    simp [List.findSome?, h₁, h₂]

/-- A resolved point keeps the point, spreads its clients by their topology and puts its results
in the shape's directory below the output root; only the quota can fail. -/
theorem RunConfig.resolve_eq_ok_iff {p : Point} {ops : OpsTarget} {root : String}
    {rc : RunConfig} :
    RunConfig.resolve p ops root = .ok rc ↔ ∃ q, ops.quota p.clients = .ok q ∧
      rc = ⟨p, Topology.resolve p.clients, q, joinPath root p.shape.dirName⟩ := by
  unfold RunConfig.resolve
  cases h : ops.quota p.clients with
  | error o => simp [bind, Except.bind]
  | ok q =>
    simp only [bind, Except.bind, pure, Except.pure, Except.ok.injEq]
    exact ⟨fun h => ⟨q, rfl, h.symm⟩, fun ⟨q', hq', h'⟩ => by cases hq'; exact h'.symm⟩

/-- Every outcome is exactly one of completed, skipped and failed. -/
theorem SweepReport.completed_add_skipped_add_failed (r : SweepReport) :
    r.completed + r.skipped + r.failed = r.outcomes.length := by
  obtain ⟨outcomes⟩ := r
  induction outcomes with
  | nil => rfl
  | cons po rest ih =>
    obtain ⟨p, o⟩ := po
    simp only [completed, skipped, failed, List.countP_cons, List.length_cons] at ih ⊢
    cases o <;> simp <;> omega

/-- The outcome of a point whose run the runner answered. -/
def Outcome.ofAnswer : Except InvocationError Unit → Outcome
  | .ok () => .completed
  | .error e => .failed e

theorem Outcome.ofAnswer_ne_skipped (answer : Except InvocationError Unit) (v : Violation) :
    Outcome.ofAnswer answer ≠ .skipped v := by
  rcases answer with _ | ⟨⟩ <;> simp [Outcome.ofAnswer]

/-- A runner that always answers, with success or an error, and never stops the program. -/
def Runner.Returns {σ : Type} (runner : Runner σ) : Prop :=
  ∀ inv st, ∃ answer st', (runner.run inv).runFrom st = (.ok answer, st')

namespace Sweep

variable {σ : Type} (sw : Sweep) (runner : Runner σ)

/-- Every point that passes the rules has a quota that fits its word. -/
def QuotasFit : Prop :=
  ∀ p ∈ sw.space.points, p.shape.validate = none → ∃ q, sw.options.ops.quota p.clients = .ok q

/-- Visiting the points `ps` from state `st` reports `outcomes` and ends in state `st'`. -/
inductive Visits : List Point → Disk × σ → List (Point × Outcome) → Disk × σ → Prop where
  /-- Nothing is left to visit. -/
  | nil (st : Disk × σ) : Visits [] st [] st
  /-- A point that breaks a rule is skipped with it, and nothing changes. -/
  | skip {p ps st outcomes st'} {v : Violation} (hv : p.shape.validate = some v)
      (rest : Visits ps st outcomes st') : Visits (p :: ps) st ((p, .skipped v) :: outcomes) st'
  /-- The output directory of a valid point cannot be made: the point fails and the runner is
  not consulted. -/
  | noDir {p ps st outcomes st'} {rc : RunConfig} {d : Disk} {e : IoError}
      (hv : p.shape.validate = none)
      (hrc : RunConfig.resolve p sw.options.ops sw.options.outputRoot = .ok rc)
      (hd : st.1.createDirAll rc.outputDir = (d, some e))
      (rest : Visits ps (d, st.2) outcomes st') :
      Visits (p :: ps) st ((p, .failed (.outputDir rc.outputDir e)) :: outcomes) st'
  /-- The runner is handed the invocation of a valid point once, after its directory is made,
  and its answer is the outcome. -/
  | call {p ps st outcomes st' st₁} {rc : RunConfig} {d : Disk}
      {answer : Except InvocationError Unit}
      (hv : p.shape.validate = none)
      (hrc : RunConfig.resolve p sw.options.ops sw.options.outputRoot = .ok rc)
      (hd : st.1.createDirAll rc.outputDir = (d, none))
      (hrun : (runner.run (rc.invocation sw.options.cluster sw.options.client)).runFrom (d, st.2) =
        (.ok answer, st₁))
      (rest : Visits ps st₁ outcomes st') :
      Visits (p :: ps) st ((p, Outcome.ofAnswer answer) :: outcomes) st'

/-! ## One point -/

section Visit

variable {sw runner}

theorem visit_of_invalid {p : Point} {v : Violation} (hv : p.shape.validate = some v)
    (st : Disk × σ) : (sw.visit runner p).runFrom st = (.ok (p, .skipped v), st) := by
  simp only [visit, planPoint, hv, Stopping.runFrom_bind]
  rfl

/-- A valid point whose quota overflows stops the run before anything is touched. -/
theorem visit_of_overflow {p : Point} {o : Overflow} (hv : p.shape.validate = none)
    (hrc : RunConfig.resolve p sw.options.ops sw.options.outputRoot = .error o) (st : Disk × σ) :
    (sw.visit runner p).runFrom st = (.error (o.abortAt Site.quota), st) := by
  simp only [visit, planPoint, hv, hrc, Stopping.runFrom_bind]
  rfl

/-- Visiting a resolved valid point: create the directory, then consult the runner. -/
theorem visit_of_resolved {p : Point} {rc : RunConfig} (hv : p.shape.validate = none)
    (hrc : RunConfig.resolve p sw.options.ops sw.options.outputRoot = .ok rc) (st : Disk × σ) :
    (sw.visit runner p).runFrom st =
      match (sw.runConfig runner rc).runFrom st with
      | (.ok o, st') => (.ok (p, o), st')
      | (.error a, st') => (.error a, st') := by
  obtain ⟨q, -, rfl⟩ := RunConfig.resolve_eq_ok_iff.1 hrc
  simp only [visit, planPoint, hv, hrc, Stopping.runFrom_bind]
  simp only [Functor.map, Except.map, Except.mapError, Stopping.runFrom_ofExcept,
    Stopping.runFrom_bind]
  rcases (sw.runConfig runner _).runFrom st with ⟨_ | o, st'⟩ <;> rfl

theorem runConfig_of_noDir {rc : RunConfig} {st : Disk × σ} {d : Disk} {e : IoError}
    (hd : st.1.createDirAll rc.outputDir = (d, some e)) :
    (sw.runConfig runner rc).runFrom st = (.ok (.failed (.outputDir rc.outputDir e)), (d, st.2)) := by
  simp only [runConfig, Stopping.runFrom_bind, Stopping.runFrom_get, hd, Stopping.runFrom_set]
  rfl

theorem runConfig_of_dir {rc : RunConfig} {st : Disk × σ} {d : Disk}
    (hd : st.1.createDirAll rc.outputDir = (d, none)) :
    (sw.runConfig runner rc).runFrom st =
      match (runner.run (rc.invocation sw.options.cluster sw.options.client)).runFrom (d, st.2) with
      | (.ok answer, st') => (.ok (Outcome.ofAnswer answer), st')
      | (.error a, st') => (.error a, st') := by
  simp only [runConfig, Stopping.runFrom_bind, Stopping.runFrom_get, hd, Stopping.runFrom_set]
  rcases (runner.run _).runFrom (d, st.2) with ⟨_ | (_ | ⟨⟩), st'⟩ <;> rfl

end Visit

/-! ## A whole run -/

section Run

variable {sw runner}

/-- Visiting a list of points whose valid members all have fitting quotas, with a runner that
always answers, reports one outcome per point as `Visits` describes.  Induction on the points:
each step is one of the three visit lemmas. -/
theorem mapM_visit_visits (hr : runner.Returns) :
    ∀ (ps : List Point) (st : Disk × σ),
      (∀ p ∈ ps, p.shape.validate = none → ∃ q, sw.options.ops.quota p.clients = .ok q) →
      ∃ outcomes st', (ps.mapM (sw.visit runner)).runFrom st = (.ok outcomes, st') ∧
        sw.Visits runner ps st outcomes st'
  | [], st, _ => ⟨[], st, rfl, .nil st⟩
  | p :: ps, st, hfit => by
    have hrest : ∀ p' ∈ ps, p'.shape.validate = none →
        ∃ q, sw.options.ops.quota p'.clients = .ok q :=
      fun p' hp' => hfit p' (List.mem_cons_of_mem p hp')
    rw [List.mapM_cons, Stopping.runFrom_bind]
    cases hv : p.shape.validate with
    | some v =>
      -- skipped: nothing changes, the rest runs from `st`
      obtain ⟨outcomes, st', hps, hvis⟩ := mapM_visit_visits hr ps st hrest
      refine ⟨_, st', ?_, .skip hv hvis⟩
      rw [visit_of_invalid hv]
      simp only [Stopping.runFrom_bind, hps, Stopping.runFrom_pure]
    | none =>
      obtain ⟨q, hq⟩ := hfit p List.mem_cons_self hv
      obtain ⟨rc, hrc⟩ : ∃ rc, RunConfig.resolve p sw.options.ops sw.options.outputRoot = .ok rc :=
        ⟨_, RunConfig.resolve_eq_ok_iff.2 ⟨q, hq, rfl⟩⟩
      rw [visit_of_resolved hv hrc]
      rcases hd : st.1.createDirAll rc.outputDir with ⟨d, _ | e⟩
      · -- the directory is there: the runner answers once, the rest runs from its state
        obtain ⟨answer, st₁, hans⟩ :=
          hr (rc.invocation sw.options.cluster sw.options.client) (d, st.2)
        obtain ⟨outcomes, st', hps, hvis⟩ := mapM_visit_visits hr ps st₁ hrest
        refine ⟨_, st', ?_, .call hv hrc hd hans hvis⟩
        rw [runConfig_of_dir hd, hans]
        simp only [Stopping.runFrom_bind, hps, Stopping.runFrom_pure]
      · -- no directory: the point fails, the rest runs from the disk as creation left it
        obtain ⟨outcomes, st', hps, hvis⟩ := mapM_visit_visits hr ps (d, st.2) hrest
        refine ⟨_, st', ?_, .noDir hv hrc hd hvis⟩
        rw [runConfig_of_noDir hd]
        simp only [Stopping.runFrom_bind, hps, Stopping.runFrom_pure]

/-- The visits report the points in the order they were given. -/
theorem Visits.map_fst {ps : List Point} {st st' : Disk × σ} {outcomes : List (Point × Outcome)}
    (h : sw.Visits runner ps st outcomes st') : outcomes.map Prod.fst = ps := by
  induction h with
  | nil => rfl
  | skip _ _ ih => simp [ih]
  | noDir _ _ _ _ ih => simp [ih]
  | call _ _ _ _ _ ih => simp [ih]

/-- A visit reports a point skipped exactly when it breaks a rule, and with that rule. -/
theorem Visits.skipped_iff {ps : List Point} {st st' : Disk × σ}
    {outcomes : List (Point × Outcome)} (h : sw.Visits runner ps st outcomes st') :
    ∀ p o, (p, o) ∈ outcomes → ∀ v, o = .skipped v ↔ p.shape.validate = some v := by
  induction h with
  | nil => simp
  | skip hv _ ih =>
    intro p o hpo v
    rcases List.mem_cons.1 hpo with heq | hmem
    · obtain ⟨rfl, rfl⟩ := Prod.mk.inj heq
      rw [hv, Outcome.skipped.injEq, Option.some.injEq, eq_comm]
    · exact ih p o hmem v
  | noDir hv _ _ _ ih =>
    intro p o hpo v
    rcases List.mem_cons.1 hpo with heq | hmem
    · obtain ⟨rfl, rfl⟩ := Prod.mk.inj heq
      simp [hv]
    · exact ih p o hmem v
  | call hv _ _ _ _ ih =>
    intro p o hpo v
    rcases List.mem_cons.1 hpo with heq | hmem
    · obtain ⟨rfl, rfl⟩ := Prod.mk.inj heq
      simp [Outcome.ofAnswer_ne_skipped, hv]
    · exact ih p o hmem v

end Run

/-! ## The run of a sweep -/

/-- With a runner that always answers and quotas that fit, a run returns a report that lists
every point of the space in order with one outcome each, so the three counts add up to the
number of points; a point is skipped exactly when it breaks a rule, with the first rule it
breaks; and the visits are those `Visits` describes: the runner is consulted once for each valid
point whose directory could be made, in the order of the points, and for no other. -/
theorem run_reports_every_point (hr : runner.Returns) (hq : sw.QuotasFit) (st : Disk × σ) :
    ∃ report st', (sw.run runner).runFrom st = (.ok report, st') ∧
      report.outcomes.map Prod.fst = sw.space.points ∧
      report.completed + report.skipped + report.failed = sw.space.points.length ∧
      (∀ n, sw.space.len = .ok n → report.completed + report.skipped + report.failed = n) ∧
      (∀ p o, (p, o) ∈ report.outcomes → ∀ v, o = .skipped v ↔ p.shape.validate = some v) ∧
      (∀ s : Shape, s.validate =
        if s.servers ≤ s.replicas then some (.insufficientServers s.servers s.replicas)
        else if s.servers < s.serverSpan then some (.spanExceedsServers s.serverSpan s.servers)
        else none) ∧
      sw.Visits runner sw.space.points st report.outcomes st' := by
  obtain ⟨outcomes, st', hrun, hvis⟩ := mapM_visit_visits hr sw.space.points st hq
  have hfst : outcomes.map Prod.fst = sw.space.points := hvis.map_fst
  have hcount : (SweepReport.mk outcomes).completed + (SweepReport.mk outcomes).skipped +
      (SweepReport.mk outcomes).failed = sw.space.points.length := by
    rw [SweepReport.completed_add_skipped_add_failed, ← hfst, List.length_map]
  refine ⟨⟨outcomes⟩, st', ?_, hfst, hcount, ?_, hvis.skipped_iff, Shape.validate_eq, hvis⟩
  · simp only [run, Stopping.runFrom_bind, hrun, Stopping.runFrom_pure]
  · intro n hn
    rw [hcount, Space.eq_points_length_of_len_eq_ok hn]

/-- The dry runner answers every run, and a shared total never overflows, so a dry run of two
client counts reports both points. -/
theorem dryRun_reports_every_point :
    Runner.dryRun.Returns ∧
    QuotasFit ⟨{ tests := ["get"], clients := [1, 2] },
      { cluster := {}, client := {}, ops := .total 100, outputRoot := "out" }⟩ ∧
    ∃ report st', (Sweep.run ⟨{ tests := ["get"], clients := [1, 2] },
      { cluster := {}, client := {}, ops := .total 100, outputRoot := "out" }⟩
        Runner.dryRun).runFrom ({}, ()) = (.ok report, st') ∧
      report.outcomes.map Prod.fst = Space.points { tests := ["get"], clients := [1, 2] } ∧
      report.completed + report.skipped + report.failed =
        (Space.points { tests := ["get"], clients := [1, 2] }).length ∧
      (∀ n, Space.len { tests := ["get"], clients := [1, 2] } = .ok n →
        report.completed + report.skipped + report.failed = n) ∧
      (∀ p o, (p, o) ∈ report.outcomes → ∀ v, o = .skipped v ↔ p.shape.validate = some v) ∧
      (∀ s : Shape, s.validate =
        if s.servers ≤ s.replicas then some (.insufficientServers s.servers s.replicas)
        else if s.servers < s.serverSpan then some (.spanExceedsServers s.serverSpan s.servers)
        else none) ∧
      Visits ⟨{ tests := ["get"], clients := [1, 2] },
        { cluster := {}, client := {}, ops := .total 100, outputRoot := "out" }⟩
        Runner.dryRun (Space.points { tests := ["get"], clients := [1, 2] }) ({}, ())
        report.outcomes st' := by
  have hr : Runner.dryRun.Returns := fun _ st => ⟨.ok (), st, rfl⟩
  have hq : QuotasFit ⟨{ tests := ["get"], clients := [1, 2] },
      { cluster := {}, client := {}, ops := .total 100, outputRoot := "out" }⟩ :=
    fun _ _ _ => ⟨_, rfl⟩
  exact ⟨hr, hq, run_reports_every_point _ _ hr hq _⟩

/-- A per-client target of `2^64 - 1` operations with two clients overflows the quota of the
first point, so the run stops instead of reporting it. -/
theorem run_stops_on_quota_overflow :
    ((Sweep.run ⟨{ tests := ["get"], clients := [2] },
      { cluster := {}, client := {}, ops := .perClient u64Max, outputRoot := "out" }⟩
        Runner.dryRun).runFrom ({}, ())).1 =
      .error ⟨"attempt to multiply with overflow", Site.quota⟩ := by
  rfl

end Sweep

end ClusterSweep
