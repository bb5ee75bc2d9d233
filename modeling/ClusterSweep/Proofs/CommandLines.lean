import Mathlib
import ClusterSweep.Proofs.LayoutNames
import ClusterSweep.Proofs.ReadingOrder

/-!
# Command lines that read back

The cluster runner's arguments and the benchmark client's arguments put every value at a place
fixed by the values before it, so the arguments determine what they carry, whatever the texts
among them hold.

* The cluster arguments carry the cluster's size, its transport, the timeout in whole seconds,
  the log settings, the master's extra arguments and the three switches (`ClusterView`).  The
  first seventeen arguments stand at fixed places; after `--shareHosts` comes `--masterArgs` and
  its value exactly when there are master arguments, since no switch is `--masterArgs`, and then
  the switches that are on, in their fixed order (`ClusterView.args_injective`).
* The client arguments carry the test, the workload's sizes, the threads, the requests, the time
  limit in whole seconds and the output directory (`ClientView`); whether a time limit is there
  shows in the number of arguments (`ClientView.args_injective`).
* The client's command line is the binary and its arguments joined by single blanks, so when the
  binary, the test and the output directory hold no blank, splitting the line at blanks gives
  them back (`commandLine_split`).
* A duration's whole seconds are its seconds rounded up (`Duration.wholeSecs_eq_ceil`), which
  overflow only for the largest count of seconds with a part of a second
  (`Duration.wholeSecs_eq_error_iff`).
-/

namespace ClusterSweep

theorem toString_eq_toString_iff {m n : ℕ} : toString m = toString n ↔ m = n :=
  ⟨fun h => eq_of_toList_toString_eq (congrArg String.toList h), fun h => h ▸ rfl⟩

theorem space_not_mem_toString (n : ℕ) : ' ' ∉ (toString n).toList := fun h => by
  simpa using isDigit_of_mem_toString h

theorem ServerLogLevel.name_eq_name_iff {l l' : ServerLogLevel} : l.name = l'.name ↔ l = l' := by
  cases l <;> cases l' <;> decide

/-- Two results rendered by an injective map are equal exactly when what they render is. -/
theorem map_eq_ok_eq_iff {α β ε : Type} {f : α → β} (hf : Function.Injective f)
    {x x' : Except ε α} {b b' : β} (h : f <$> x = .ok b) (h' : f <$> x' = .ok b') :
    b = b' ↔ x = x' := by
  rw [map_eq_ok_iff] at h h'
  obtain ⟨a, rfl, rfl⟩ := h
  obtain ⟨a', rfl, rfl⟩ := h'
  rw [Except.ok.injEq]
  exact hf.eq_iff

/-! ## Whole seconds -/

namespace Duration

/-- The length of a duration in seconds. -/
def seconds (d : Duration) : ℚ := d.secs + d.nanos / nanosPerSec

/-- A duration below a second past its whole seconds starts one more second. -/
theorem ceil_seconds {d : Duration} (hd : d.nanos < nanosPerSec) :
    ⌈d.seconds⌉₊ = d.secs + if 0 < d.nanos then 1 else 0 := by
  have hpos : (0 : ℚ) < nanosPerSec := by simp [nanosPerSec]
  have hfrac : (0 : ℚ) ≤ d.nanos / nanosPerSec := by positivity
  rw [seconds, add_comm, Nat.ceil_add_natCast hfrac, add_comm]
  congr 1
  split_ifs with hn
  · -- a part of a second, below one: its ceiling is one
    rw [Nat.ceil_eq_iff one_ne_zero]
    have hlt : (d.nanos : ℚ) < nanosPerSec := by exact_mod_cast hd
    constructor
    · simp only [Nat.sub_self, Nat.cast_zero]
      exact div_pos (by exact_mod_cast hn) hpos
    · rw [Nat.cast_one, div_le_one hpos]
      exact hlt.le
  · simp [show d.nanos = 0 by omega]

/-- Whole seconds are the seconds rounded up, whenever these fit in 64 bits. -/
theorem wholeSecs_eq_ceil {d : Duration} (hd : d.nanos < nanosPerSec) (hfit : ⌈d.seconds⌉₊ ≤ u64Max) :
    d.wholeSecs = .ok ⌈d.seconds⌉₊ := by
  rw [ceil_seconds hd] at hfit ⊢
  exact checkedAdd_ok_iff.2 ⟨hfit, rfl⟩

/-- Rounding up overflows only the largest count of seconds with a part of a second. -/
theorem wholeSecs_eq_error_iff {d : Duration} (hs : d.secs ≤ u64Max) :
    d.wholeSecs = .error .add ↔ d.secs = u64Max ∧ 0 < d.nanos := by
  unfold wholeSecs checkedAdd
  split_ifs with hfit hn <;> simp only [false_iff, not_and, true_iff] <;> omega

end Duration

/-! ## The cluster runner's arguments -/

/-- What the cluster runner's arguments carry: the cluster's size, the transport, the timeout in
whole seconds, the log settings, the master's extra arguments and the switches. -/
structure ClusterView where
  servers : ℕ
  replicas : ℕ
  backupDisks : ℕ
  clientProcesses : ℕ
  transport : String
  timeoutSecs : ℕ
  logDir : String
  logLevel : ServerLogLevel
  masterArgs : Option String
  disjunct : Bool
  debug : Bool
  verbose : Bool
  deriving DecidableEq

namespace ClusterView

/-- `--masterArgs` and its value, when there are master arguments. -/
def masterPart : Option String → List String
  | some m => ["--masterArgs", m]
  | none => []

/-- The switches that are on, in their fixed order. -/
def switches (v : ClusterView) : List String :=
  [(v.disjunct, "--disjunct"), (v.debug, "--debug"), (v.verbose, "--verbose")].filterMap
    fun (on, flag) => if on then some flag else none

/-- The arguments that carry a view. -/
def args (v : ClusterView) : List String :=
  ["--servers", toString v.servers, "--replicas", toString v.replicas,
    "--numBackupDisks", toString v.backupDisks, "--clients", toString v.clientProcesses,
    "--transport", v.transport, "--timeout", toString v.timeoutSecs, "--logDir", v.logDir,
    "--logLevel", v.logLevel.name, "--shareHosts"] ++ masterPart v.masterArgs ++ v.switches

theorem switches_eq_iff {v v' : ClusterView} : v.switches = v'.switches ↔
    v.disjunct = v'.disjunct ∧ v.debug = v'.debug ∧ v.verbose = v'.verbose := by
  obtain ⟨_, _, _, _, _, _, _, _, _, dj, db, vb⟩ := v
  obtain ⟨_, _, _, _, _, _, _, _, _, dj', db', vb'⟩ := v'
  cases dj <;> cases db <;> cases vb <;> cases dj' <;> cases db' <;> cases vb' <;> simp [switches]

theorem masterArgs_not_mem_switches (v : ClusterView) : "--masterArgs" ∉ v.switches := by
  simp only [switches, List.mem_filterMap, List.mem_cons, List.not_mem_nil, or_false]
  rintro ⟨⟨on, flag⟩, hmem, hsome⟩
  rcases hmem with h | h | h <;> cases h <;> split at hsome <;> simp_all

/-- After `--shareHosts`, the master arguments come first when there are any, then the
switches. -/
theorem tail_inj {v v' : ClusterView}
    (h : masterPart v.masterArgs ++ v.switches = masterPart v'.masterArgs ++ v'.switches) :
    v.masterArgs = v'.masterArgs ∧ v.switches = v'.switches := by
  cases hm : v.masterArgs <;> cases hm' : v'.masterArgs <;> rw [hm, hm'] at h <;>
    simp only [masterPart, List.nil_append, List.cons_append, List.cons.injEq] at h
  case none.none => exact ⟨rfl, h⟩
  case none.some m' =>
    exact absurd (h ▸ List.mem_cons_self) (masterArgs_not_mem_switches v)
  case some.none m =>
    exact absurd (h.symm ▸ List.mem_cons_self) (masterArgs_not_mem_switches v')
  case some.some m m' =>
    obtain ⟨-, rfl, hs⟩ := h
    exact ⟨rfl, by simpa using hs⟩

/-- Distinct views have distinct arguments. -/
theorem args_injective : Function.Injective args := by
  intro v v' h
  simp only [args, List.cons_append, List.nil_append, List.cons.injEq, true_and,
    toString_eq_toString_iff, ServerLogLevel.name_eq_name_iff] at h
  obtain ⟨hs, hr, hb, hc, ht, hto, hd, hl, htail⟩ := h
  obtain ⟨hm, hsw⟩ := tail_inj htail
  obtain ⟨hdj, hdb, hvb⟩ := switches_eq_iff.1 hsw
  obtain ⟨⟩ := v
  obtain ⟨⟩ := v'
  simp_all

end ClusterView

namespace Invocation

/-- What an invocation's cluster arguments carry; its timeout's whole seconds can overflow. -/
def clusterView (inv : Invocation) : Except Overflow ClusterView := do
  let secs ← inv.cluster.timeout.wholeSecs
  pure ⟨inv.servers, inv.replicas, inv.cluster.backupDisks, inv.clientProcesses,
    inv.cluster.transport, secs, inv.cluster.logDir, inv.cluster.logLevel, inv.cluster.masterArgs,
    inv.cluster.disjunct, inv.cluster.debug, inv.cluster.verbose⟩

/-- The cluster arguments are what they carry, rendered. -/
theorem clusterArgs_eq_map (inv : Invocation) :
    inv.clusterArgs = ClusterView.args <$> inv.clusterView := by
  simp only [clusterArgs, clusterView]
  cases inv.cluster.timeout.wholeSecs with
  | error o => rfl
  | ok secs =>
    cases inv.cluster.masterArgs <;> rfl

/-- Two invocations' cluster arguments are equal exactly when they carry the same. -/
theorem clusterArgs_eq_iff {inv inv' : Invocation} {a a' : List String}
    (h : inv.clusterArgs = .ok a) (h' : inv'.clusterArgs = .ok a') :
    a = a' ↔ inv.clusterView = inv'.clusterView := by
  rw [clusterArgs_eq_map] at h h'
  exact map_eq_ok_eq_iff ClusterView.args_injective h h'

end Invocation

/-! ## The benchmark client's arguments -/

/-- What the benchmark client's arguments carry: the test, the workload, the threads and requests,
the time limit in whole seconds and the output directory. -/
structure ClientView where
  test : String
  valueSize : ℕ
  lrangeLen : ℕ
  keySpaceLen : ℕ
  serverSpan : ℕ
  threads : ℕ
  requests : ℕ
  timeLimitSecs : Option ℕ
  outputDir : String
  deriving DecidableEq

namespace ClientView

/-- `--timeLimit` and its seconds, when there is a time limit. -/
def limitPart : Option ℕ → List String
  | some secs => ["--timeLimit", toString secs]
  | none => []

/-- The arguments that carry a view. -/
def args (v : ClientView) : List String :=
  ["--tests", v.test, "--valueSize", toString v.valueSize, "--lrangelen", toString v.lrangeLen,
    "--keyspacelen", toString v.keySpaceLen, "--serverSpan", toString v.serverSpan,
    "--threads", toString v.threads, "--requests", toString v.requests] ++
    limitPart v.timeLimitSecs ++ ["--outputDir", v.outputDir]

/-- Whether there is a time limit shows in the number of arguments left. -/
theorem tail_inj {l l' : Option ℕ} {o o' : String}
    (h : limitPart l ++ ["--outputDir", o] = limitPart l' ++ ["--outputDir", o']) :
    l = l' ∧ o = o' := by
  cases l <;> cases l' <;> simp only [limitPart, List.nil_append, List.cons_append,
    List.cons.injEq, reduceCtorEq, List.nil_eq, and_false] at h
  case none.none => exact ⟨rfl, h.2.1⟩
  case some.some s s' =>
    obtain ⟨-, hs, -, ho, -⟩ := h
    exact ⟨by rw [toString_eq_toString_iff.1 hs], ho⟩

theorem args_injective : Function.Injective args := by
  intro v v' h
  simp only [args, List.cons_append, List.nil_append, List.cons.injEq, true_and,
    toString_eq_toString_iff] at h
  obtain ⟨ht, hv, hl, hk, hs, hth, hr, htail⟩ := h
  obtain ⟨hlim, ho⟩ := tail_inj htail
  obtain ⟨⟩ := v
  obtain ⟨⟩ := v'
  simp_all

/-- No argument holds a blank when the test and the output directory hold none. -/
theorem space_not_mem_args {v : ClientView} (ht : ' ' ∉ v.test.toList)
    (ho : ' ' ∉ v.outputDir.toList) : ∀ s ∈ v.args, ' ' ∉ s.toList := by
  have hflags : ' ' ∉ "--tests".toList ∧ ' ' ∉ "--valueSize".toList ∧ ' ' ∉ "--lrangelen".toList ∧
      ' ' ∉ "--keyspacelen".toList ∧ ' ' ∉ "--serverSpan".toList ∧ ' ' ∉ "--threads".toList ∧
      ' ' ∉ "--requests".toList ∧ ' ' ∉ "--timeLimit".toList ∧ ' ' ∉ "--outputDir".toList := by
    decide
  cases hl : v.timeLimitSecs <;>
    simp only [args, limitPart, hl, List.cons_append, List.nil_append, List.forall_mem_cons,
      List.not_mem_nil, ht, ho, space_not_mem_toString, hflags, not_false_eq_true, false_implies,
      implies_true, and_self]

end ClientView

namespace ClientCommand

/-- What a client command's arguments carry; its time limit's whole seconds can overflow. -/
def view (c : ClientCommand) : Except Overflow ClientView := do
  let secs ← match c.timeLimit with
    | some d => some <$> d.wholeSecs
    | none => pure none
  pure ⟨c.test, c.valueSize, c.lrangeLen, c.keySpaceLen, c.serverSpan, c.threads, c.requests,
    secs, c.outputDir⟩

theorem args_eq_map (c : ClientCommand) : c.args = ClientView.args <$> c.view := by
  obtain ⟨_, _, _, _, _, _, _, _, _ | d, _⟩ := c
  · rfl
  · simp only [args, view]
    cases d.wholeSecs <;> rfl

/-- Two client commands' arguments are equal exactly when they carry the same. -/
theorem args_eq_iff {c c' : ClientCommand} {a a' : List String} (h : c.args = .ok a)
    (h' : c'.args = .ok a') : a = a' ↔ c.view = c'.view := by
  rw [args_eq_map] at h h'
  exact map_eq_ok_eq_iff ClientView.args_injective h h'

/-- A command's view carries its test and output directory as they are. -/
theorem view_eq_ok {c : ClientCommand} {v : ClientView} (h : c.view = .ok v) :
    v.test = c.test ∧ v.outputDir = c.outputDir := by
  obtain ⟨_, _, _, _, _, _, _, _, _ | d, _⟩ := c
  · cases h
    exact ⟨rfl, rfl⟩
  · simp only [view] at h
    cases hs : d.wholeSecs <;> rw [hs] at h <;> cases h
    exact ⟨rfl, rfl⟩

/-- The command line is the binary and the arguments joined by blanks, so when the binary, the
test and the output directory hold no blank, splitting it at blanks gives them back. -/
theorem commandLine_split {c : ClientCommand} {a : List String} (hb : ' ' ∉ c.binary.toList)
    (ht : ' ' ∉ c.test.toList) (ho : ' ' ∉ c.outputDir.toList) (h : c.args = .ok a) :
    ∃ line, c.commandLine = .ok line ∧ (line.split ' ').toList.map (·.copy) = c.binary :: a := by
  refine ⟨" ".intercalate (c.binary :: a), by rw [commandLine, h]; rfl, ?_⟩
  rw [args_eq_map, map_eq_ok_iff] at h
  obtain ⟨v, hv, rfl⟩ := h
  obtain ⟨htest, hout⟩ := view_eq_ok hv
  have hl : ∀ s ∈ c.binary :: v.args, ' ' ∉ s.toList := by
    rintro s (_ | ⟨_, hs⟩)
    · exact hb
    · exact ClientView.space_not_mem_args (htest ▸ ht) (hout ▸ ho) s hs
  have hsplit := String.toList_split_intercalate hl
  rw [if_neg (List.cons_ne_nil _ _)] at hsplit
  exact hsplit

end ClientCommand

/-- The command lines read back.  The cluster runner's arguments are equal exactly when the
invocations carry the same cluster settings, the timeout counted in whole seconds, whatever the
transport, the log directory and the master arguments hold; the benchmark client's arguments
likewise for the client settings.  The client's command line splits at blanks into the binary
and its arguments when the binary, the test and the output directory hold none.  Whole seconds
are a duration's seconds rounded up whenever these fit in 64 bits, and overflow exactly for the
largest count of seconds with a part of a second. -/
theorem command_lines_read_back :
    (∀ (inv inv' : Invocation) (a a' : List String), inv.clusterArgs = .ok a →
      inv'.clusterArgs = .ok a' → (a = a' ↔ inv.clusterView = inv'.clusterView)) ∧
    (∀ (c c' : ClientCommand) (a a' : List String), c.args = .ok a → c'.args = .ok a' →
      (a = a' ↔ c.view = c'.view)) ∧
    (∀ (c : ClientCommand) (a : List String), ' ' ∉ c.binary.toList → ' ' ∉ c.test.toList →
      ' ' ∉ c.outputDir.toList → c.args = .ok a →
      ∃ line, c.commandLine = .ok line ∧ (line.split ' ').toList.map (·.copy) = c.binary :: a) ∧
    (∀ d : Duration, d.nanos < Duration.nanosPerSec → ⌈d.seconds⌉₊ ≤ u64Max →
      d.wholeSecs = .ok ⌈d.seconds⌉₊) ∧
    ∀ d : Duration, d.secs ≤ u64Max → (d.wholeSecs = .error .add ↔ d.secs = u64Max ∧ 0 < d.nanos) :=
  ⟨fun _ _ _ _ => Invocation.clusterArgs_eq_iff, fun _ _ _ _ => ClientCommand.args_eq_iff,
    fun _ _ => ClientCommand.commandLine_split, fun _ => Duration.wholeSecs_eq_ceil,
    fun _ => Duration.wholeSecs_eq_error_iff⟩

/-- The client command of the runner tests with a time limit of half a second: its line splits
back into the binary and its arguments, the limit rounded up to one second. -/
theorem command_lines_read_back_half_second :
    ∃ line, ClientCommand.commandLine ⟨"bench", "get", 3, 100, 1, 1, 4, 12500,
        some ⟨0, 500000000⟩, "out/x"⟩ = .ok line ∧
      (line.split ' ').toList.map (·.copy) = ["bench", "--tests", "get", "--valueSize", "3",
        "--lrangelen", "100", "--keyspacelen", "1", "--serverSpan", "1", "--threads", "4",
        "--requests", "12500", "--timeLimit", "1", "--outputDir", "out/x"] :=
  command_lines_read_back.2.2.1 _ _ (by decide) (by decide) (by decide) (by decide)

end ClusterSweep
