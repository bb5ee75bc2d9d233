import Mathlib
import ClusterSweep.Settings.Load
import ClusterSweep.Proofs.SettingsTrees

/-!
# Every source of settings keeps its tables sorted

Layering relies on sorted tables (`Keyed`).  Each of the four sources builds its tables with
`Value.ofEntries` or by merging, so each gives a `Keyed` tree: the defaults written back by
`Config.toValue` (`keyed_toValue`), the command-line options (`keyed_overrides`), the
environment variables (`Environment.keyed_layer`) and a YAML file (`Yaml.keyed_readTable`).

The two readers of text are recursive with fuel; their invariant is proved for every fuel at
once, the reader of a value together with the reader of table entries that it calls.  The YAML
walk is a state-and-failure monad, and its results are described by `Yaml.Returns`, a
postcondition of every successful run.

The command-line layer is restated here with one helper per kind of option (`optEntry`,
`flagEntry`), so that its tables can be looked into without unfolding each option's `match`.
-/

namespace ClusterSweep.Settings

open Value

/-! ## Defaults -/

section Defaults

variable {o : Option Origin}

@[simp] theorem keyed_strValue (s : String) : Keyed (strValue o s) := .scalar _ _

@[simp] theorem keyed_natValue (n : Nat) : Keyed (natValue o n) := .scalar _ _

@[simp] theorem keyed_boolValue (b : Bool) : Keyed (boolValue o b) := .scalar _ _

@[simp] theorem keyed_list (xs : List Value) : Keyed (.list o xs) := .list _ _

@[simp] theorem keyed_natsValue (ns : List Nat) : Keyed (natsValue o ns) := .list _ _

@[simp] theorem keyed_optValue {α : Type} {f : Option Origin → α → Value}
    (hf : ∀ x, Keyed (f o x)) (a : Option α) : Keyed (optValue o f a) := by
  cases a
  · exact .scalar _ _
  · exact hf _

theorem keyed_runner_toValue (r : Runner) : Keyed (r.toValue o) := by
  cases r <;> exact keyed_ofEntries o (by simp)

/-- The defaults layer, a configuration written back as a tree, keeps its tables sorted. -/
theorem keyed_toValue (c : Config) : Keyed (c.toValue o) :=
  keyed_ofEntries o (by simp [keyed_ofEntries, keyed_runner_toValue])

end Defaults

/-! ## Command-line options -/

/-- The entry an option puts in a table: one when the option is given, none otherwise. -/
def optEntry {α : Type} (k : String) (f : α → Value) : Option α → List (String × Value)
  | some x => [(k, f x)]
  | none => []

/-- The entry a switch puts in a table: `true` when it is given, none otherwise. -/
def flagEntry (k : String) (b : Bool) : List (String × Value) :=
  if b then [(k, boolValue (some .commandLine) true)] else []

@[simp] theorem forall_mem_optEntry {α : Type} {k : String} {f : α → Value} {a : Option α}
    {P : String × Value → Prop} : (∀ e ∈ optEntry k f a, P e) ↔ ∀ x, a = some x → P (k, f x) := by
  cases a <;> simp [optEntry]

@[simp] theorem forall_mem_flagEntry {k : String} {b : Bool} {P : String × Value → Prop} :
    (∀ e ∈ flagEntry k b, P e) ↔ (b = true → P (k, boolValue (some .commandLine) true)) := by
  cases b <;> simp [flagEntry]

namespace Overrides

/-- The entries of the command line's `cluster` table. -/
def clusterEntries (ov : Overrides) : List (String × Value) :=
  let o := some Origin.commandLine
  optEntry "backup_disks" (natValue o) ov.backupDisks ++ flagEntry "disjunct" ov.disjunct ++
    optEntry "master_args" (strValue o) ov.masterArgs ++
    optEntry "transport" (strValue o) ov.transport ++
    optEntry "timeout" (fun n => strValue o (Duration.ofSecs n).format) ov.timeout ++
    flagEntry "debug" ov.debug ++ optEntry "log_dir" (strValue o) ov.logDir ++
    optEntry "log_level" (fun l => strValue o l.name) ov.logLevel ++
    flagEntry "verbose" ov.verbose

/-- The entries of the command line's `client` table. -/
def clientEntries (ov : Overrides) : List (String × Value) :=
  let o := some Origin.commandLine
  optEntry "binary" (strValue o) ov.binary ++ optEntry "lrange_len" (natValue o) ov.lrangeLen ++
    optEntry "time_limit" (fun n => strValue o (Duration.ofSecs n).format) ov.timeLimit

/-- The entries of the command line's `sweep` table. -/
def sweepEntries (ov : Overrides) : List (String × Value) :=
  let o := some Origin.commandLine
  optEntry "servers" (natsValue o) ov.servers ++ optEntry "replicas" (natsValue o) ov.replicas ++
    optEntry "server_span" (natsValue o) ov.serverSpan ++
    optEntry "value_size" (natsValue o) ov.valueSize ++
    optEntry "key_space_len" (natsValue o) ov.keySpaceLen ++
    optEntry "tests" (fun ts => .list o (ts.map (strValue o))) ov.tests ++
    optEntry "clients" (natsValue o) ov.clients ++
    optEntry "total_ops" (natValue o) ov.totalOps ++
    optEntry "per_client_ops" (natValue o) ov.perClientOps

/-- The command-line layer: the output root if given, the three tables of options, always
there, and the dry runner if asked for. -/
theorem entries_eq (ov : Overrides) :
    ov.entries = sortEntries (optEntry "output_dir" (strValue (some .commandLine)) ov.outputDir ++
      [("cluster", ofEntries (some .commandLine) ov.clusterEntries),
       ("client", ofEntries (some .commandLine) ov.clientEntries),
       ("sweep", ofEntries (some .commandLine) ov.sweepEntries)] ++
      (if ov.dryRun then [("runner", Runner.dryRun.toValue (some .commandLine))] else [])) :=
  rfl

end Overrides

/-- The command-line layer keeps its tables sorted. -/
theorem keyed_overrides (ov : Overrides) (o : Option Origin) : Keyed (.table o ov.entries) := by
  have hcluster : ∀ e ∈ ov.clusterEntries, Keyed e.2 := by
    simp only [Overrides.clusterEntries, List.forall_mem_append, forall_mem_optEntry,
      forall_mem_flagEntry]
    simp
  have hclient : ∀ e ∈ ov.clientEntries, Keyed e.2 := by
    simp only [Overrides.clientEntries, List.forall_mem_append, forall_mem_optEntry]
    simp
  have hsweep : ∀ e ∈ ov.sweepEntries, Keyed e.2 := by
    simp only [Overrides.sweepEntries, List.forall_mem_append, forall_mem_optEntry]
    simp
  rw [Overrides.entries_eq]
  refine keyed_ofEntries o ?_
  simp only [List.forall_mem_append, forall_mem_optEntry, List.forall_mem_cons]
  have htables := And.intro (keyed_ofEntries (some .commandLine) hcluster)
    (And.intro (keyed_ofEntries (some .commandLine) hclient)
      (keyed_ofEntries (some .commandLine) hsweep))
  split <;> simp [htables, keyed_runner_toValue]

/-! ## Environment variables -/

namespace Environment

/-- The values and table entries read from a variable keep their tables sorted: a table is
only ever built by `Value.ofEntries` from the entries read inside its braces. -/
theorem keyed_value_entries (o : Option Origin) : ∀ n,
    (∀ cs v rest, value o n cs = some (v, rest) → Keyed v) ∧
    (∀ acc cs es rest, (∀ e ∈ acc, Keyed e.2) → entries o n acc cs = some (es, rest) →
      ∀ e ∈ es, Keyed e.2)
  | 0 => ⟨by simp [value], by simp [entries]⟩
  | n + 1 => by
    obtain ⟨ihv, ihe⟩ := keyed_value_entries o n
    constructor
    · intro cs v rest h
      rw [value.eq_2] at h
      split at h <;> simp only [Option.bind_eq_bind, Option.bind_eq_some_iff, Option.some.injEq,
        Prod.mk.injEq, Prod.exists, reduceCtorEq] at h
      -- only `{` gives a table, built from the entries read below it
      · exact h.1 ▸ .scalar _ _
      · exact h.1 ▸ .scalar _ _
      · obtain ⟨_, _, -, rfl, -⟩ := h
        exact .list _ _
      · obtain ⟨es, _, hes, rfl, -⟩ := h
        exact keyed_ofEntries o (ihe [] _ _ _ (by simp) hes)
      · obtain ⟨_, _, -, rfl, -⟩ := h
        exact .scalar _ _
      · exact h.1 ▸ .scalar _ _
      · exact h.1 ▸ .scalar _ _
    · intro acc cs es rest hacc h
      by_cases hc : ∃ r, cs = '}' :: r
      · obtain ⟨r, rfl⟩ := hc
        rw [entries.eq_2] at h
        obtain ⟨rfl, -⟩ := Prod.mk.inj (Option.some.inj h)
        simpa using hacc
      · rw [entries.eq_3 _ _ _ _ (fun r hr => hc ⟨r, hr⟩)] at h
        -- the key is read quoted or bare, and what follows it is read the same way
        split at h
        on_goal 2 =>
          dsimp only at h
          split_ifs at h
          · simp at h
        all_goals
          simp only [Option.bind_eq_bind, Option.bind_eq_some_iff, Prod.exists] at h
          obtain ⟨k, r, -, h⟩ := h
          split at h
          · simp only [Option.bind_eq_some_iff, Prod.exists] at h
            obtain ⟨v, r', hv, h⟩ := h
            have hacc' : ∀ e ∈ (k, v) :: acc, Keyed e.2 :=
              List.forall_mem_cons.2 ⟨ihv _ _ _ hv, hacc⟩
            split at h
            · exact ihe _ _ _ _ hacc' h
            · obtain ⟨rfl, -⟩ := Prod.mk.inj (Option.some.inj h)
              exact fun e he => hacc' e (List.mem_reverse.1 he)
            · simp at h
          · simp at h

theorem keyed_readValue (o : Option Origin) (s : String) : Keyed (readValue o s) := by
  unfold readValue
  dsimp only
  split
  · exact (keyed_value_entries o _).1 _ _ _ ‹_›
  · exact .scalar _ _

theorem keyed_nest (o : Option Origin) {v : Value} (hv : Keyed v) :
    ∀ path, Keyed (nest o path v)
  | [] => hv
  | k :: path => keyed_ofEntries o (by simpa using keyed_nest o hv path)

/-- The environment layer keeps its tables sorted: each variable is a nest of one-entry tables
merged into the tables of the variables before it. -/
theorem keyed_layer (p : String) (vars : List (String × String)) (o : Option Origin) :
    Keyed (.table o (layer p vars)) := by
  unfold layer
  dsimp only
  split
  · rename_i o' es hm
    have hk : Keyed (.table o' es) := by
      rw [← hm]
      refine Keyed.foldl (fun acc ⟨name, text⟩ hacc => ?_) _ (Keyed.empty _)
      split
      · exact hacc.merge (keyed_nest _ (keyed_readValue _ _) _)
      · exact hacc
    exact Keyed.table_iff.2 (Keyed.table_iff.1 hk)
  · exact Keyed.empty o

end Environment

/-! ## YAML files -/

namespace Yaml

/-- Every result a walk returns satisfies `P`, whatever count of followed aliases it starts
from. -/
def Returns {α : Type} (w : Walk α) (P : α → Prop) : Prop :=
  ∀ n a n', w.run n = .ok (a, n') → P a

namespace Returns

variable {α β : Type} {P : α → Prop}

theorem pure {a : α} (h : P a) : Returns (Pure.pure a) P := by
  intro n a' n' hr
  cases hr
  exact h

theorem bind {Q : β → Prop} {x : Walk β} {f : β → Walk α} (hx : Returns x Q)
    (hf : ∀ b, Q b → Returns (f b) P) : Returns (x >>= f) P := by
  intro n a n' hr
  rw [StateT.run_bind] at hr
  cases hxr : x.run n with
  | error e =>
    rw [hxr] at hr
    cases hr
  | ok bn =>
    rw [hxr] at hr
    exact hf bn.1 (hx n bn.1 bn.2 hxr) bn.2 a n' hr

theorem throw {e : Failure} : Returns (MonadExcept.throw e : Walk α) P := by
  intro n a n' hr
  cases hr

theorem any (w : Walk α) : Returns w fun _ => True := fun _ _ _ _ => trivial

theorem placed {w : Walk α} (h : Returns w P) (m : Mark) (path : Path) :
    Returns (Yaml.placed m path w) P := by
  intro n a n' hr
  simp only [Yaml.placed, StateT.run, Except.mapError] at hr
  cases hw : w n with
  | error e =>
    rw [hw] at hr
    cases hr
  | ok r =>
    rw [hw] at hr
    cases hr
    exact h n _ _ hw

end Returns

/-- The nodes and mapping entries read from a document keep their tables sorted: a table is
only ever built by `Value.ofEntries`, from a mapping's entries or for a variant tag. -/
theorem keyed_nodeValue_mapEntries (doc : Document) (o : Option Origin) (fuel : Nat) :
    (∀ depth path tagged pos,
      Returns (nodeValue doc o fuel depth path tagged pos) fun r => Keyed r.1) ∧
    (∀ depth path acc pos, (∀ e ∈ acc, Keyed e.2) →
      Returns (mapEntries doc o fuel depth path acc pos) fun r => ∀ e ∈ r.1, Keyed e.2) := by
  induction fuel with
  | zero =>
    exact ⟨fun _ _ _ _ => by rw [nodeValue]; exact Returns.throw,
      fun _ _ _ _ _ => by rw [mapEntries]; exact Returns.throw⟩
  | succ fuel ih =>
    obtain ⟨ihv, ihe⟩ := ih
    -- a node under a variant tag is a table of one entry, the tag's name to the node
    have underTag : ∀ depth path name pos, Returns (nodeValue doc o fuel depth path true pos >>=
        fun r => pure (Value.ofEntries o [(name, r.1)], r.2)) fun r => Keyed r.1 :=
      fun _ _ _ _ => Returns.bind (ihv _ _ _ _) fun r hr =>
        Returns.pure (keyed_ofEntries o (by simpa using hr))
    constructor
    · intro depth path tagged pos
      rw [nodeValue]
      refine Returns.bind (Returns.any _) fun im _ => ?_
      obtain ⟨item, mark⟩ := im
      refine Returns.placed ?_ mark path
      -- the items in the order of their constructors: alias, scalar, sequence start and end,
      -- mapping start and end, and the empty stream
      rcases item with id | ⟨tag, text, style⟩ | tag | _ | tag | _ | _
      · exact Returns.bind (Returns.any _) fun _ _ => Returns.bind (ihv _ _ _ _) fun r hr =>
          Returns.pure hr
      · dsimp only
        split
        · exact underTag _ _ _ _
        · split
          · exact Returns.pure (.scalar _ _)
          · exact Returns.throw
      · dsimp only
        split
        · exact underTag _ _ _ _
        · split
          · exact Returns.bind (Q := fun _ => False) Returns.throw fun _ h => h.elim
          · exact Returns.bind (Returns.any _) fun _ _ => Returns.pure (.list _ _)
      · exact Returns.pure (.scalar _ _)
      · dsimp only
        split
        · exact underTag _ _ _ _
        · split
          · exact Returns.bind (Q := fun _ => False) Returns.throw fun _ h => h.elim
          · exact Returns.bind (ihe _ _ [] _ (by simp)) fun r hr =>
              Returns.pure (keyed_ofEntries o hr)
      · exact Returns.pure (.scalar _ _)
      · exact Returns.pure (.scalar _ _)
    · intro depth path acc pos hacc
      rw [mapEntries]
      refine Returns.bind (Returns.any _) fun im _ => ?_
      obtain ⟨item, mark⟩ := im
      dsimp only
      split
      · exact Returns.pure fun e he => hacc e (List.mem_reverse.1 he)
      · exact Returns.pure fun e he => hacc e (List.mem_reverse.1 he)
      · refine Returns.bind (Returns.any _) fun kp _ => ?_
        obtain ⟨k, _⟩ := kp
        exact Returns.bind (ihv _ _ _ _) fun r hr => ihe _ _ _ _ (List.forall_mem_cons.2 ⟨hr, hacc⟩)

theorem keyed_tableAt (doc : Document) (o : Option Origin) : ∀ fuel path pos,
    Returns (tableAt doc o fuel path pos) fun es => ∀ e ∈ es, Keyed e.2
  | 0, _, _ => by rw [tableAt]; exact Returns.throw
  | fuel + 1, path, pos => by
    rw [tableAt]
    refine Returns.bind (Returns.any _) fun ⟨item, mark⟩ _ => Returns.placed ?_ mark path
    rcases item with id | ⟨tag, text, style⟩ | tag | _ | tag | _ | _
    · exact Returns.bind (Returns.any _) fun _ _ => keyed_tableAt doc o fuel _ _
    · dsimp only
      split
      · exact Returns.pure (by simp)
      · split <;> exact Returns.throw
    · exact Returns.throw
    · exact Returns.throw
    · exact Returns.bind ((keyed_nodeValue_mapEntries doc o fuel).2 _ _ [] _ (by simp))
        fun r hr => Returns.pure hr
    · exact Returns.throw
    · exact Returns.pure (by simp)

theorem keyed_readFailure {text : String} {o o' : Option Origin} {es : List (String × Value)}
    (h : readFailure text o = .ok es) : Keyed (.table o' es) := by
  unfold readFailure at h
  simp only [bind, Except.bind, StateT.run'] at h
  split at h
  · cases h
  · rename_i v hv
    -- after the table is read, the checks either fail or give its entries sorted
    have hes : es = Value.sortEntries v := by
      split at h
      · cases h
      · split at h
        · cases h
        · exact (Except.ok.inj h).symm
    subst hes
    refine Keyed.table_iff.2 ⟨ordered_sortEntries v, fun e he => ?_⟩
    simp only [Functor.map, Except.map] at hv
    split at hv
    · cases hv
    · rename_i r hr
      cases hv
      exact keyed_tableAt _ _ _ _ _ 0 _ _ hr e (mem_sortEntries he)

end Yaml

/-- A YAML text read as settings keeps its tables sorted. -/
theorem Yaml.keyed_readTable {text : String} {src : Option Origin} {es : List (String × Value)}
    (h : Yaml.readTable text src = .ok es) (o : Option Origin) : Keyed (.table o es) := by
  cases hr : Yaml.readFailure text src with
  | error f => simp [Yaml.readTable, hr, Except.mapError] at h
  | ok es' =>
    simp only [Yaml.readTable, hr, Except.mapError, Except.ok.injEq] at h
    exact h ▸ Yaml.keyed_readFailure hr

end ClusterSweep.Settings
