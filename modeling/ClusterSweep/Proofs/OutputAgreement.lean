import Mathlib
import ClusterSweep.Plan
import ClusterSweep.Reduction.Run
import ClusterSweep.Proofs.SweepRun

/-!
# The sweep and the reducer name the same runs

A sweep writes the results of a valid point into the directory of its shape below the output
root, under the point's test and client count; the reducer later walks the space again and reads
exactly those runs.  The two walks differ: the plan goes through every point and skips the
invalid ones, while the reducer drops the invalid shapes first and then expands each valid one
by tests and client counts.  They agree because a point's validity depends on its shape alone.

`Reduction.runs` lists the runs the reducer reduces, in order: `Reduction.reduce` visits the
valid shapes' tests in the order of `Reduction.testDirs` (`reduce_eq_foldlM_testDirs`), and for
each the runs of every client count in order (the body of `Reduction.reduceTest`).  The plan's
runs, taken from its resolved points in order, are that list (`plan_runs_eq_reduce_runs`), and
the invocation of each resolved point tells its clients to write that very run: its output
directory, its test, and processes times threads equal to the client count.

Resolving a point computes its quota, which can overflow; then the plan holds no resolved point
there and consuming it stops (`plan_overflows_where_reduce_runs`), so the agreement needs the
quotas of the valid points to fit.
-/

namespace ClusterSweep

/-! ## Loops over nested lists -/

section Loops

variable {m : Type → Type} [Monad m] [LawfulMonad m] {α β γ : Type}

/-- A loop over a `flatMap` is a loop of loops. -/
theorem foldlM_flatMap (l : List α) (g : α → List β) (f : γ → β → m γ) (init : γ) :
    (l.flatMap g).foldlM f init = l.foldlM (fun acc a => (g a).foldlM f acc) init := by
  induction l generalizing init with
  | nil => rfl
  | cons a l ih => simp only [List.flatMap_cons, List.foldlM_append, List.foldlM_cons, ih]

end Loops

/-- A list whose every member `x` maps to `.ok y` with `g y = h x` maps to a list of successes,
and what `g` reads from them is what `h` reads from the members. -/
theorem exists_map_ok {ε α β γ : Type} {f : α → Except ε β} {g : β → γ} {h : α → γ} :
    ∀ l : List α, (∀ x ∈ l, ∃ y, f x = .ok y ∧ g y = h x) →
      ∃ ys : List β, l.map f = ys.map .ok ∧ ys.map g = l.map h
  | [], _ => ⟨[], rfl, rfl⟩
  | x :: l, hl => by
    obtain ⟨y, hfy, hgy⟩ := hl x List.mem_cons_self
    obtain ⟨ys, hmap, hread⟩ := exists_map_ok l fun x' hx' => hl x' (List.mem_cons_of_mem x hx')
    refine ⟨y :: ys, ?_, ?_⟩
    · rw [List.map_cons, List.map_cons, hfy, hmap]
    · rw [List.map_cons, List.map_cons, hgy, hread]

/-! ## The reducer's runs -/

namespace Reduction

/-- The directories and tests the reducer visits, in order: every test in the directory of every
valid shape. -/
def testDirs (space : Space) (root : String) : List (String × String) :=
  (space.shapes.filter fun s => s.validate.isNone).flatMap fun shape =>
    space.tests.map fun test => (joinPath root shape.dirName, test)

/-- The runs the reducer reduces, in order: each client count of each visited test. -/
def runs (space : Space) (root : String) : List RunFiles :=
  (testDirs space root).flatMap fun g => space.clients.map (RunFiles.mk g.1 g.2)

/-- The reducer is one loop over the visited tests. -/
theorem reduce_eq_foldlM_testDirs (space : Space) (root : String) :
    reduce space root =
      (testDirs space root).foldlM (fun report g => reduceTest space.clients g.1 g.2 report) {} := by
  rw [testDirs, foldlM_flatMap]
  simp only [List.foldlM_map]
  rfl

end Reduction

/-! ## The plan's runs -/

/-- The run a planned point writes: none for a skipped point, the resolved output directory, test
and client count for a resolved one. -/
def Planned.runFiles? : Planned → Option RunFiles
  | .skip _ _ => none
  | .run rc => some ⟨rc.outputDir, rc.point.test, rc.point.clients⟩

/-- The run that the clients of an invocation write: its test with as many clients as its
processes run threads, in its output directory. -/
def Invocation.runFiles (inv : Invocation) : RunFiles :=
  ⟨inv.client.outputDir, inv.client.test, inv.clientProcesses * inv.client.threads⟩

/-- The clients of a resolved point's invocation write the run of the point. -/
theorem RunConfig.runFiles_invocation {p : Point} {ops : OpsTarget} {root : String}
    {rc : RunConfig} (hrc : RunConfig.resolve p ops root = .ok rc) (cluster : ClusterOptions)
    (client : ClientOptions) :
    (rc.invocation cluster client).runFiles = ⟨rc.outputDir, rc.point.test, rc.point.clients⟩ := by
  obtain ⟨q, -, rfl⟩ := RunConfig.resolve_eq_ok_iff.1 hrc
  have hclients := Topology.resolve_clients p.clients
  simp only [Topology.clients] at hclients
  simp only [Invocation.runFiles, RunConfig.invocation, hclients]

namespace Sweep

variable (sw : Sweep)

/-- The run a point of the sweep writes when it is valid. -/
def pointRun? (p : Point) : Option RunFiles :=
  if p.shape.validate.isNone then
    some ⟨joinPath sw.options.outputRoot p.shape.dirName, p.test, p.clients⟩
  else none

/-- Every point of a sweep whose valid points have fitting quotas is planned, and the planned
point writes the run `pointRun?` names. -/
theorem planPoint_ok (hq : sw.QuotasFit) :
    ∀ p ∈ sw.space.points, ∃ pl, sw.planPoint p = .ok pl ∧ pl.runFiles? = sw.pointRun? p := by
  intro p hp
  cases hv : p.shape.validate with
  | some v =>
    refine ⟨.skip p v, ?_, ?_⟩
    · simp only [planPoint, hv]
      rfl
    · simp [Planned.runFiles?, pointRun?, hv]
  | none =>
    obtain ⟨q, hquota⟩ := hq p hp hv
    refine ⟨.run ⟨p, Topology.resolve p.clients, q, joinPath sw.options.outputRoot p.shape.dirName⟩,
      ?_, ?_⟩
    · simp only [planPoint, hv, RunConfig.resolve, hquota]
      rfl
    · simp [Planned.runFiles?, pointRun?, hv]

/-- Keeping the runs of the valid points is expanding the valid shapes: validity is a property of
the shape. -/
theorem filterMap_points_eq_runs :
    sw.space.points.filterMap sw.pointRun? = Reduction.runs sw.space sw.options.outputRoot := by
  unfold Space.points Reduction.runs Reduction.testDirs
  rw [List.flatMap_assoc]
  induction sw.space.shapes with
  | nil => rfl
  | cons shape shapes ih =>
    rw [List.flatMap_cons, List.filterMap_append, ih, List.filter_cons]
    by_cases hv : shape.validate.isNone
    · -- a valid shape keeps every test and client count
      simp only [hv, if_true, List.flatMap_cons, List.filterMap_flatMap, List.filterMap_map,
        List.flatMap_map]
      congr 1
      congr 1
      funext test
      simp [Function.comp_def, pointRun?, hv, List.filterMap_eq_map']
    · -- an invalid shape contributes no run
      simp only [hv, Bool.false_eq_true, if_false]
      simp [List.filterMap_flatMap, pointRun?, hv]

/-- A point planned as a run was resolved into it. -/
theorem resolve_of_planPoint {p : Point} {rc : RunConfig} (h : sw.planPoint p = .ok (.run rc)) :
    RunConfig.resolve p sw.options.ops sw.options.outputRoot = .ok rc := by
  unfold planPoint at h
  split at h
  · exact nomatch h
  · cases hres : RunConfig.resolve p sw.options.ops sw.options.outputRoot with
    | error o =>
      rw [hres] at h
      exact nomatch h
    | ok rc' =>
      rw [hres] at h
      cases h
      rfl

/-- When the quotas of the valid points fit, every point of the plan is resolved or skipped, the
runs of the resolved points are, in order, the runs the reducer reduces, and each resolved point's
invocation has its clients write exactly that run. -/
theorem plan_runs_eq_reduce_runs (hq : sw.QuotasFit) :
    ∃ planned : List Planned, sw.plan = planned.map Except.ok ∧
      planned.filterMap Planned.runFiles? = Reduction.runs sw.space sw.options.outputRoot ∧
      (∀ rc, Planned.run rc ∈ planned →
        (rc.invocation sw.options.cluster sw.options.client).runFiles =
          ⟨rc.outputDir, rc.point.test, rc.point.clients⟩) ∧
      Reduction.reduce sw.space sw.options.outputRoot =
        (Reduction.testDirs sw.space sw.options.outputRoot).foldlM
          (fun report g => Reduction.reduceTest sw.space.clients g.1 g.2 report) {} := by
  obtain ⟨planned, hmap, hread⟩ := exists_map_ok sw.space.points (sw.planPoint_ok hq)
  refine ⟨planned, hmap, ?_, ?_, Reduction.reduce_eq_foldlM_testDirs _ _⟩
  · calc planned.filterMap Planned.runFiles?
        = (planned.map Planned.runFiles?).filterMap id := by rw [List.filterMap_map]; rfl
      _ = (sw.space.points.map sw.pointRun?).filterMap id := by rw [hread]
      _ = sw.space.points.filterMap sw.pointRun? := by rw [List.filterMap_map]; rfl
      _ = Reduction.runs sw.space sw.options.outputRoot := sw.filterMap_points_eq_runs
  · intro rc hrc
    have hmem : Except.ok (Planned.run rc) ∈ sw.space.points.map sw.planPoint := by
      rw [hmap]
      exact List.mem_map_of_mem hrc
    obtain ⟨p, -, hp⟩ := List.mem_map.1 hmem
    exact RunConfig.runFiles_invocation (sw.resolve_of_planPoint hp) _ _

/-- A shared total never overflows, so the plan of two client counts names the reducer's runs. -/
theorem plan_runs_eq_reduce_runs_of_total :
    QuotasFit ⟨{ tests := ["get"], clients := [1, 2] },
      { cluster := {}, client := {}, ops := .total 100, outputRoot := "out" }⟩ ∧
    ∃ planned : List Planned, Sweep.plan ⟨{ tests := ["get"], clients := [1, 2] },
        { cluster := {}, client := {}, ops := .total 100, outputRoot := "out" }⟩ =
        planned.map Except.ok ∧
      planned.filterMap Planned.runFiles? = Reduction.runs { tests := ["get"], clients := [1, 2] } "out" ∧
      (∀ rc, Planned.run rc ∈ planned →
        (rc.invocation {} {}).runFiles = ⟨rc.outputDir, rc.point.test, rc.point.clients⟩) ∧
      Reduction.reduce { tests := ["get"], clients := [1, 2] } "out" =
        (Reduction.testDirs { tests := ["get"], clients := [1, 2] } "out").foldlM
          (fun report g => Reduction.reduceTest [1, 2] g.1 g.2 report) {} := by
  have hq : QuotasFit ⟨{ tests := ["get"], clients := [1, 2] },
      { cluster := {}, client := {}, ops := .total 100, outputRoot := "out" }⟩ :=
    fun _ _ _ => ⟨_, rfl⟩
  exact ⟨hq, plan_runs_eq_reduce_runs _ hq⟩

/-- A per-client target of `2^64 - 1` operations with two clients: the plan's only entry is the
overflow of its quota, while the reducer reduces that run. -/
theorem plan_overflows_where_reduce_runs :
    Sweep.plan ⟨{ tests := ["get"], clients := [2] },
        { cluster := {}, client := {}, ops := .perClient u64Max, outputRoot := "out" }⟩ =
      [.error .mul] ∧
    Reduction.runs { tests := ["get"], clients := [2] } "out" =
      [⟨joinPath "out" (Shape.dirName ⟨4, 3, 1, 3, 1⟩), "get", 2⟩] :=
  ⟨rfl, rfl⟩

end Sweep

end ClusterSweep
