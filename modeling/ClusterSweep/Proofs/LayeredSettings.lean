import Mathlib
import ClusterSweep.Proofs.SettingsSources
import ClusterSweep.Proofs.SettingsRecords

/-!
# Which layer a setting comes from

A configuration is loaded from four layers, the highest first: the command-line options, the
`PS__` environment variables, the settings file and the defaults (`Config.stack`).  The layers
are merged into one tree and the configuration is read from it.  This module describes the
configuration by the layers alone.

The merge, the readers of the sources and the reading of the configuration come from libraries,
so loading is described for every `Library` that keeps the laws it relies on (`Library.Laws`):
the merge layers trees key by key, so that at every path the upper tree's node wins, tables
merge and anything else replaces what lies below (`KeyWiseMerge`); each source gives a table
with sorted keys, as a map does; the command line is written with the options that are not
given left out (`Overrides.option`); and a configuration is read from a tree setting by setting,
each from its node or its default.  The program's own libraries keep them
(`Library.standard_laws`).

* Every setting of a record is read from the node that the highest layer with a node at its path
  gives (`topAt`); a layer with something other than a table above that path hides the layers
  below it.  Where no layer gives a node, the setting keeps its default (`Leaf.Reads`).  A
  record given as a list is read by position.
* The runner is read the same way from its `type`, `program` and `grace` nodes
  (`RunnerReads`).
* The command line gives a node exactly for the options that are given, so an absent option or
  switch leaves its path to the layers below, and a list given on the command line is the node
  itself, whatever the lower layers hold.  The program's command line always holds the tables
  `cluster`, `client` and `sweep`, which is why a lower layer that gives one of these records as
  something other than a table is not read at all (`load_drops_client_given_as_list`).

Everything rests on `KeyWiseMerge.agree_foldl`: the nodes of a merge of sorted trees are those
of the stack; what is read from the merged tree is then read from the stack
(`Leaf.Reads.agree`, `RunnerReads.agree`).  The merges of concrete layers are evaluated through
`mergeEntriesBy`, a merge with fuel that agrees with the merge once the fuel exceeds the merge's
termination measure.
-/

namespace ClusterSweep.Settings

open Value

/-! ## Merging with fuel -/

namespace Value

mutual

/-- `merge` with a bound on its recursion depth, for evaluation. -/
def mergeBy : Nat → Value → Value → Value
  | 0, _, upper => upper
  | n + 1, .table _ a, .table o b => .table o (mergeEntriesBy n a b)
  | _ + 1, _, upper => upper

/-- `mergeEntries` with a bound on its recursion depth, for evaluation. -/
def mergeEntriesBy : Nat → List (String × Value) → List (String × Value) →
    List (String × Value)
  | 0, _, b => b
  | _ + 1, [], b => b
  | _ + 1, a, [] => a
  | n + 1, (ka, va) :: ra, (kb, vb) :: rb =>
    if ka < kb then (ka, va) :: mergeEntriesBy n ra ((kb, vb) :: rb)
    else if kb < ka then (kb, vb) :: mergeEntriesBy n ((ka, va) :: ra) rb
    else (ka, mergeBy n va vb) :: mergeEntriesBy n ra rb

end

/-- With more fuel than the measure of its termination proof, the bounded merge of entry lists
is the merge; the induction follows the merge, and the merge of two values under one key is the
nested case. -/
theorem mergeEntriesBy_eq : ∀ (a b : List (String × Value)) (n : Nat),
    sizeOf a + sizeOf b < n → mergeEntriesBy n a b = mergeEntries a b := by
  refine mergeEntries.induct
    (fun x y => ∀ n, sizeOf x + sizeOf y < n → mergeBy n x y = merge x y)
    (fun a b => ∀ n, sizeOf a + sizeOf b < n → mergeEntriesBy n a b = mergeEntries a b)
    ?tables ?replace ?nil_left ?nil_right ?lt ?gt ?eq
  case tables =>
    intro o a o' b ih n hn
    cases n with
    | zero => omega
    | succ n =>
      simp only [table.sizeOf_spec] at hn
      rw [mergeBy, merge_table_table, ih n (by omega)]
  case replace =>
    intro x v hnot n hn
    cases n with
    | zero => omega
    | succ n =>
      rw [merge.eq_2 x v hnot]
      cases x with
      | table o a =>
        cases v with
        | table o' b => exact (hnot o a o' b rfl rfl).elim
        | scalar | list => rfl
      | scalar | list => rfl
  case nil_left =>
    intro b n hn
    cases n with
    | zero => omega
    | succ n => rw [mergeEntries_nil_left, mergeEntriesBy]
  case nil_right =>
    intro a hne n hn
    cases n with
    | zero => omega
    | succ n =>
      rw [mergeEntries.eq_2 a hne]
      cases a with
      | nil => exact (hne rfl).elim
      | cons e a => rfl
  case lt =>
    intro ka va ra kb vb rb hlt ih n hn
    cases n with
    | zero => omega
    | succ n =>
      simp only [List.cons.sizeOf_spec, Prod.mk.sizeOf_spec] at hn ih
      rw [mergeEntries.eq_3, if_pos hlt, mergeEntriesBy, if_pos hlt, ih n (by omega)]
  case gt =>
    intro ka va ra kb vb rb hnlt hlt ih n hn
    cases n with
    | zero => omega
    | succ n =>
      simp only [List.cons.sizeOf_spec, Prod.mk.sizeOf_spec] at hn ih
      rw [mergeEntries.eq_3, if_neg hnlt, if_pos hlt, mergeEntriesBy, if_neg hnlt, if_pos hlt,
        ih n (by omega)]
  case eq =>
    intro ka va ra kb vb rb hnlt hnlt' ihv ih n hn
    cases n with
    | zero => omega
    | succ n =>
      simp only [List.cons.sizeOf_spec, Prod.mk.sizeOf_spec] at hn ih
      rw [mergeEntries.eq_3, if_neg hnlt, if_neg hnlt', mergeEntriesBy, if_neg hnlt,
        if_neg hnlt', ih n (by omega), ihv n (by omega)]

theorem mergeBy_eq (a b : Value) (n : Nat) (hn : sizeOf a + sizeOf b < n) :
    mergeBy n a b = merge a b := by
  cases n with
  | zero => omega
  | succ n =>
    cases a with
    | table o ea =>
      cases b with
      | table o' eb =>
        simp only [table.sizeOf_spec] at hn
        rw [mergeBy, merge_table_table, mergeEntriesBy_eq ea eb n (by omega)]
      | scalar | list => exact (merge_of_isTable_false _ rfl).symm
    | scalar | list => exact (merge_of_isTable_false_left rfl _).symm

/-- The merge of entry lists, as a function that the kernel evaluates. -/
theorem mergeEntries_eq_mergeEntriesBy :
    mergeEntries = fun a b => mergeEntriesBy (sizeOf a + sizeOf b + 1) a b := by
  funext a b
  exact (mergeEntriesBy_eq a b _ (Nat.lt_succ_self _)).symm

/-- The merge of values, as a function that the kernel evaluates. -/
theorem merge_eq_mergeBy : merge = fun a b => mergeBy (sizeOf a + sizeOf b + 1) a b := by
  funext a b
  exact (mergeBy_eq a b _ (Nat.lt_succ_self _)).symm

end Value

/-! ## Reading a node of the stack -/

variable {β : Type}

/-- A setting `x` read from node `v`: from `v` itself where it is not a table; where it is a
table, from a table, the one that the layers' tables at that path merge to. -/
def Holds (read : Decoder β) (v : Value) (x : β) : Prop :=
  (v.isTable = false ∧ read v = .ok x) ∨ (v.isTable = true ∧ ∃ m, m.isTable = true ∧ read m = .ok x)

/-- A setting read from the node of the stack at its path where there is one, and left at its
default `d` where there is none. -/
def NodeReads (read : Decoder β) : Option Value → β → β → Prop
  | some v, x, _ => Holds read v x
  | none, x, d => x = d

theorem Holds.of_ok {read : Decoder β} {v : Value} {x : β} (h : read v = .ok x) :
    Holds read v x := by
  cases hv : v.isTable
  · exact .inl ⟨hv, h⟩
  · exact .inr ⟨hv, v, hv, h⟩

theorem NodeReads.of_readsOr {read : Decoder β} {o : Option Value} {x d : β}
    (h : ReadsOr read o x d) : NodeReads read o x d := by
  cases o with
  | none => exact h
  | some v => exact Holds.of_ok h

/-- A table at a path of the merge is a table at that path of the stack. -/
theorem Agree.isTable {v : Value} {y : Option Value} (h : Agree (some v) y)
    (hv : v.isTable = true) : ∃ w, y = some w ∧ w.isTable = true := by
  cases y with
  | none => exact absurd (h.none_iff.2 rfl) (by simp)
  | some w =>
    refine ⟨w, rfl, ?_⟩
    cases hw : w.isTable
    · have := (h.some_iff w hw).2 rfl
      cases this
      rw [hv] at hw
      cases hw
    · rfl

/-- A node of the merge read with `read` gives a node of the stack that holds the same setting. -/
theorem Agree.holds {read : Decoder β} {v : Value} {y : Option Value} {x : β}
    (h : Agree (some v) y) (hv : read v = .ok x) : ∃ w, y = some w ∧ Holds read w x := by
  cases hvt : v.isTable
  · exact ⟨v, ((h.some_iff v hvt).1 rfl), .inl ⟨hvt, hv⟩⟩
  · obtain ⟨w, rfl, hw⟩ := h.isTable hvt
    exact ⟨w, rfl, .inr ⟨hw, v, hvt, hv⟩⟩

/-- What the merge reads at a path, the stack reads at that path. -/
theorem NodeReads.of_agree {read : Decoder β} {o y : Option Value} {x d : β} (h : Agree o y)
    (hr : ReadsOr read o x d) : NodeReads read y x d := by
  cases o with
  | none =>
    rw [h.none_iff.1 rfl]
    exact hr
  | some v =>
    obtain ⟨w, rfl, hw⟩ := h.holds hr
    exact hw

/-! ## Settings as leaves of the stack -/

/-- A setting of a configuration, in the record of the given name or at the top. -/
structure Leaf where
  record : Option String
  setting : Setting Config

/-- A setting of a record, as a setting of the configuration that holds the record. -/
def Setting.comap {α : Type} (s : Setting α) (proj : Config → α) : Setting Config :=
  ⟨s.key, s.pos, s.read, fun c => s.get (proj c)⟩

/-- The node of the stack a setting is read from: the node at its path, or the item at its
position where the stack gives its record as a list. -/
def Leaf.node (l : Leaf) (S : List Value) : Option Value :=
  match l.record with
  | none => topAt S [l.setting.key]
  | some r =>
    match topAt S [r] with
    | some (.list _ items) => items[l.setting.pos]?
    | _ => topAt S [r, l.setting.key]

/-- A configuration holds the setting as read from the stack, or its default. -/
def Leaf.Reads (l : Leaf) (S : List Value) (c : Config) : Prop :=
  NodeReads l.setting.read (l.node S) (l.setting.get c) (l.setting.get {})

/-- Every setting of a configuration but the runner's: the output root and the settings of the
four records. -/
def Config.leaves : List Leaf :=
  ⟨none, ⟨"output_dir", 0, path, (·.outputDir)⟩⟩ ::
    (ClusterOptions.settings.map fun s => ⟨some "cluster", s.comap (·.cluster)⟩) ++
    (ClientOptions.settings.map fun s => ⟨some "client", s.comap (·.client)⟩) ++
    (SweepConfig.settings.map fun s => ⟨some "sweep", s.comap (·.sweep)⟩) ++
    (Logging.settings.map fun s => ⟨some "logging", s.comap (·.logging)⟩)

section Stack

variable {o : Option Origin} {root : List (String × Value)} {S : List Value}

/-- The settings of a record read from a keyed tree that agrees with the stack are read from the
stack: the record's node in the merge is the one the stack has, a table where the stack has a
table and the same list where the stack has a list. -/
theorem Leaf.reads_of_record {α : Type} {dec : Decoder α} {proj : Config → α} {s : Setting α}
    {r : String} {c : Config}
    (hdec : ∀ v x, Keyed v → dec v = .ok x → s.ReadsAt v x (proj {}))
    (hroot : Keyed (.table o root))
    (hag : ∀ p, Agree ((Value.table o root).find? p) (topAt S p))
    (hr : ReadsOr dec (root.lookup r) (proj c) (proj {})) :
    Leaf.Reads ⟨some r, s.comap proj⟩ S c := by
  simp only [Leaf.Reads, Leaf.node, Setting.comap]
  cases hl : root.lookup r with
  | none =>
    -- no layer gives the record, so none gives the setting
    simp only [ReadsOr, hl] at hr
    have htop : topAt S [r] = none := (hag [r]).none_iff.1 (by simp [hl])
    have hleaf : topAt S [r, s.key] = none := (hag [r, s.key]).none_iff.1 (by simp [hl])
    simp only [htop, hleaf, NodeReads, hr]
  | some v =>
    simp only [ReadsOr, hl] at hr
    have hv : Keyed v := hroot.lookup hl
    have hreads := hdec v (proj c) hv hr
    cases v with
    | table o' es =>
      -- the stack gives the record as a table, and the setting at its key
      have hrec : (Value.table o root).find? [r] = some (.table o' es) := by simp [hl]
      have hagr := hag [r]
      rw [hrec] at hagr
      obtain ⟨w, hw, hwt⟩ := hagr.isTable rfl
      have hnode : (match topAt S [r] with
          | some (.list _ items) => items[s.pos]?
          | _ => topAt S [r, s.key]) = topAt S [r, s.key] := by
        rw [hw]
        cases w <;> simp_all [Value.isTable]
      rw [hnode]
      refine NodeReads.of_agree (hag [r, s.key]) ?_
      simpa [hl, Setting.ReadsAt, RecordReads] using hreads
    | list o items =>
      have hw : topAt S [r] = some (.list o items) :=
        ((hag [r]).some_iff _ rfl).1 (by simp [hl])
      rw [hw]
      exact NodeReads.of_readsOr hreads
    | scalar o x => exact hreads.elim

/-- A configuration read from a keyed table holds each of its top settings as the entry of its
key gives it, or its default, in the order of the configuration's fields. -/
theorem Config.decode_top {c : Config} (hroot : Keyed (.table o root))
    (h : Config.decode .layered (.table o root) = .ok c) :
    ReadsOr path (root.lookup "output_dir") c.outputDir ({} : Config).outputDir ∧
      ReadsOr (decodeCluster .layered) (root.lookup "cluster") c.cluster ({} : Config).cluster ∧
      ReadsOr (decodeClient .layered) (root.lookup "client") c.client ({} : Config).client ∧
      ReadsOr (decodeRunner .layered) (root.lookup "runner") c.runner ({} : Config).runner ∧
      ReadsOr (decodeSweep .layered) (root.lookup "sweep") c.sweep ({} : Config).sweep ∧
      ReadsOr (decodeLogging .layered) (root.lookup "logging") c.logging ({} : Config).logging := by
  have htop := decode_reads hroot h
  simpa [Config.settings, Setting.ReadsAt, RecordReads] using htop

/-- The settings of a configuration read from a keyed tree that agrees with the stack are read
from the stack. -/
theorem Config.leaves_read {c : Config} (hroot : Keyed (.table o root))
    (hag : ∀ p, Agree ((Value.table o root).find? p) (topAt S p))
    (h : Config.decode .layered (.table o root) = .ok c) :
    ∀ l ∈ Config.leaves, l.Reads S c := by
  obtain ⟨houtput, hcluster, hclient, -, hsweep, hlogging⟩ := Config.decode_top hroot h
  intro l hl
  simp only [Config.leaves, List.mem_cons, List.mem_append, List.mem_map] at hl
  rcases hl with (((rfl | ⟨s, hs, rfl⟩) | ⟨s, hs, rfl⟩) | ⟨s, hs, rfl⟩) | ⟨s, hs, rfl⟩
  · exact NodeReads.of_agree (hag ["output_dir"]) (by simpa using houtput)
  · exact Leaf.reads_of_record (fun v x hv hx => decodeCluster_reads hv hx s hs) hroot hag
      hcluster
  · exact Leaf.reads_of_record (fun v x hv hx => decodeClient_reads hv hx s hs) hroot hag hclient
  · exact Leaf.reads_of_record (fun v x hv hx => decodeSweep_reads hv hx s hs) hroot hag hsweep
  · exact Leaf.reads_of_record (fun v x hv hx => decodeLogging_reads hv hx s hs) hroot hag
      hlogging

/-- `Agree.holds` at a path of a tree that agrees with the stack at every path. -/
theorem holds_of_find? (hag : ∀ p, Agree ((Value.table o root).find? p) (topAt S p))
    {p : List String} {v : Value} (hv : (Value.table o root).find? p = some v)
    {read : Decoder β} {x : β} (hx : read v = .ok x) :
    ∃ w, topAt S p = some w ∧ Holds read w x := by
  have h := hag p
  rw [hv] at h
  exact h.holds hx

/-- How a runner is read from the stack: the default runner where there is no node; from its
node where that is not a table; where it is a table, the variant from the `type` node, and for a
command runner the program and the grace time from their nodes. -/
def RunnerReads (S : List Value) (r : Runner) : Prop :=
  match topAt S ["runner"] with
  | none => r = Runner.default
  | some v =>
    if v.isTable then
      (∃ tv, topAt S ["runner", "type"] = some tv ∧ Holds (decodeRunnerKind .layered) tv r.kind) ∧
        ∀ p g, r = .command p g → ∃ pv gv, topAt S ["runner", "program"] = some pv ∧
          Holds path pv p ∧ topAt S ["runner", "grace"] = some gv ∧ Holds duration gv g
    else decodeRunner .layered v = .ok r

theorem Config.runner_reads {c : Config} (hroot : Keyed (.table o root))
    (hag : ∀ p, Agree ((Value.table o root).find? p) (topAt S p))
    (h : Config.decode .layered (.table o root) = .ok c) : RunnerReads S c.runner := by
  have hr := (Config.decode_top hroot h).2.2.2.1
  unfold RunnerReads
  cases hl : root.lookup "runner" with
  | none =>
    simp only [ReadsOr, hl] at hr
    have htopr : topAt S ["runner"] = none := (hag ["runner"]).none_iff.1 (by simp [hl])
    simp only [htopr, hr]
  | some v =>
    simp only [ReadsOr, hl] at hr
    have hfind : (Value.table o root).find? ["runner"] = some v := by simp [hl]
    cases hvt : v.isTable with
    | false =>
      have htopr : topAt S ["runner"] = some v := ((hag ["runner"]).some_iff v hvt).1 hfind
      simp only [htopr, hvt]
      exact hr
    | true =>
      -- a table in the merge: its entries are the nodes of the stack below `runner`
      cases v with
      | table o es =>
        have hagr := hag ["runner"]
        rw [hfind] at hagr
        obtain ⟨w, hw, hwt⟩ := hagr.isTable hvt
        simp only [hw, hwt, if_true]
        have hes : Ordered es := (hroot.lookup hl).ordered
        obtain ⟨⟨tv, htv, hkind⟩, hcommand⟩ := decodeRunner_table hes hr
        refine ⟨holds_of_find? hag (by simp [hl, htv]) hkind, fun p g hpg => ?_⟩
        obtain ⟨pv, gv, hpv, hp, hgv, hg⟩ := hcommand p g hpg
        obtain ⟨pw, hpw, hp'⟩ := holds_of_find? hag (p := ["runner", "program"])
          (by simp [hl, hpv]) hp
        obtain ⟨gw, hgw, hg'⟩ := holds_of_find? hag (p := ["runner", "grace"])
          (by simp [hl, hgv]) hg
        exact ⟨pw, gw, hpw, hp', hgw, hg'⟩
      | scalar | list => cases hvt

end Stack


/-! ## Reading from agreeing stacks -/

/-- A setting held by a node is held by the node that an agreeing answer gives. -/
theorem Holds.agree {read : Decoder β} {v : Value} {y : Option Value} {x : β}
    (h : Agree (some v) y) (hv : Holds read v x) : ∃ w, y = some w ∧ Holds read w x := by
  rcases hv with ⟨hvt, hr⟩ | ⟨hvt, m, hm, hr⟩
  · exact ⟨v, (h.some_iff v hvt).1 rfl, .inl ⟨hvt, hr⟩⟩
  · obtain ⟨w, rfl, hw⟩ := h.isTable hvt
    exact ⟨w, rfl, .inr ⟨hw, m, hm, hr⟩⟩

theorem NodeReads.agree {read : Decoder β} {o y : Option Value} {x d : β} (h : Agree o y)
    (hr : NodeReads read o x d) : NodeReads read y x d := by
  cases o with
  | none =>
    rw [h.none_iff.1 rfl]
    exact hr
  | some v =>
    obtain ⟨w, rfl, hw⟩ := Holds.agree h hr
    exact hw

section Agreeing

variable {S S' : List Value} (hag : ∀ p, Agree (topAt S p) (topAt S' p))
include hag

/-- Stacks that agree at every path give a setting agreeing nodes: a record's node is the same
list in both, or a list in neither. -/
theorem Leaf.node_agree (l : Leaf) : Agree (l.node S) (l.node S') := by
  obtain ⟨record, s⟩ := l
  cases record with
  | none => exact hag _
  | some r =>
    simp only [Leaf.node]
    have hr := hag [r]
    cases hs : topAt S [r] with
    | none =>
      rw [hs] at hr
      rw [hr.none_iff.1 rfl]
      exact hag _
    | some v =>
      rw [hs] at hr
      cases v with
      | list o items =>
        rw [(hr.some_iff _ rfl).1 rfl]
        exact Agree.refl _
      | scalar o x =>
        rw [(hr.some_iff _ rfl).1 rfl]
        exact hag _
      | table o es =>
        -- a table in one stack is a table in the other, and neither is read by position
        obtain ⟨w, hw, hwt⟩ := hr.isTable rfl
        rw [hw]
        cases w with
        | table => exact hag _
        | scalar | list => cases hwt

theorem Leaf.Reads.agree {l : Leaf} {c : Config} (h : l.Reads S c) : l.Reads S' c :=
  NodeReads.agree (l.node_agree hag) h

theorem RunnerReads.agree {r : Runner} (h : RunnerReads S r) : RunnerReads S' r := by
  unfold RunnerReads at h ⊢
  have hr := hag ["runner"]
  cases hs : topAt S ["runner"] with
  | none =>
    rw [hs] at h hr
    rw [hr.none_iff.1 rfl]
    exact h
  | some v =>
    rw [hs] at h hr
    cases hvt : v.isTable with
    | false =>
      rw [(hr.some_iff v hvt).1 rfl]
      simpa [hvt] using h
    | true =>
      obtain ⟨w, hw, hwt⟩ := hr.isTable hvt
      rw [hw]
      simp only [hvt, hwt, if_true] at h ⊢
      obtain ⟨⟨tv, htv, hkind⟩, hcommand⟩ := h
      -- each node below the runner's table moves to the agreeing stack
      have hnode : ∀ (k : String) (u : Value), topAt S ["runner", k] = some u →
          Agree (some u) (topAt S' ["runner", k]) := fun k u hu => hu ▸ hag _
      refine ⟨Holds.agree (hnode _ _ htv) hkind, fun p g hpg => ?_⟩
      obtain ⟨pv, gv, hpv, hp, hgv, hg⟩ := hcommand p g hpg
      obtain ⟨pw, hpw, hp'⟩ := Holds.agree (hnode _ _ hpv) hp
      obtain ⟨gw, hgw, hg'⟩ := Holds.agree (hnode _ _ hgv) hg
      exact ⟨pw, gw, hpw, hp', hgw, hg'⟩

end Agreeing

/-! ## The command-line layer -/

/-- The path of a setting. -/
def Leaf.path (l : Leaf) : List String :=
  match l.record with
  | none => [l.setting.key]
  | some r => [r, l.setting.key]

/-- The paths the command line may give a node at: the records, the runner's settings and every
other setting. -/
def Config.optionPaths : List (List String) :=
  [["cluster"], ["client"], ["sweep"], ["logging"], ["runner"], ["runner", "type"],
    ["runner", "program"], ["runner", "grace"]] ++ Config.leaves.map Leaf.path

/-- The node the command line gives at a path: the option's value where it is given, nothing
where it is not; the tables of the cluster, the client and the sweep are always there. -/
def Overrides.option (ov : Overrides) : List String → Option Value
  | ["output_dir"] => ov.outputDir.map (strValue (some .commandLine))
  | ["cluster"] => some (ofEntries (some .commandLine) ov.clusterEntries)
  | ["cluster", "backup_disks"] => ov.backupDisks.map (natValue (some .commandLine))
  | ["cluster", "disjunct"] =>
    if ov.disjunct then some (boolValue (some .commandLine) true) else none
  | ["cluster", "master_args"] => ov.masterArgs.map (strValue (some .commandLine))
  | ["cluster", "transport"] => ov.transport.map (strValue (some .commandLine))
  | ["cluster", "timeout"] =>
    ov.timeout.map fun n => strValue (some .commandLine) (Duration.ofSecs n).format
  | ["cluster", "debug"] => if ov.debug then some (boolValue (some .commandLine) true) else none
  | ["cluster", "log_dir"] => ov.logDir.map (strValue (some .commandLine))
  | ["cluster", "log_level"] => ov.logLevel.map fun l => strValue (some .commandLine) l.name
  | ["cluster", "verbose"] =>
    if ov.verbose then some (boolValue (some .commandLine) true) else none
  | ["client"] => some (ofEntries (some .commandLine) ov.clientEntries)
  | ["client", "binary"] => ov.binary.map (strValue (some .commandLine))
  | ["client", "lrange_len"] => ov.lrangeLen.map (natValue (some .commandLine))
  | ["client", "time_limit"] =>
    ov.timeLimit.map fun n => strValue (some .commandLine) (Duration.ofSecs n).format
  | ["sweep"] => some (ofEntries (some .commandLine) ov.sweepEntries)
  | ["sweep", "servers"] => ov.servers.map (natsValue (some .commandLine))
  | ["sweep", "replicas"] => ov.replicas.map (natsValue (some .commandLine))
  | ["sweep", "server_span"] => ov.serverSpan.map (natsValue (some .commandLine))
  | ["sweep", "value_size"] => ov.valueSize.map (natsValue (some .commandLine))
  | ["sweep", "key_space_len"] => ov.keySpaceLen.map (natsValue (some .commandLine))
  | ["sweep", "tests"] =>
    ov.tests.map fun ts => .list (some .commandLine) (ts.map (strValue (some .commandLine)))
  | ["sweep", "clients"] => ov.clients.map (natsValue (some .commandLine))
  | ["sweep", "total_ops"] => ov.totalOps.map (natValue (some .commandLine))
  | ["sweep", "per_client_ops"] => ov.perClientOps.map (natValue (some .commandLine))
  | ["runner"] => if ov.dryRun then some (Runner.dryRun.toValue (some .commandLine)) else none
  | ["runner", "type"] =>
    if ov.dryRun then some (strValue (some .commandLine) "dry_run") else none
  | _ => none

section CommandLine

variable {α : Type} {k k' : String} {f : α → Value} {a : Option α} {b : Bool}

@[simp] theorem reverse_optEntry : (optEntry k f a).reverse = optEntry k f a := by
  cases a <;> rfl

@[simp] theorem reverse_flagEntry : (flagEntry k b).reverse = flagEntry k b := by
  cases b <;> rfl

@[simp] theorem lookup_optEntry :
    (optEntry k f a).lookup k' = if k' = k then a.map f else none := by
  cases a <;> simp [optEntry]

@[simp] theorem lookup_flagEntry :
    (flagEntry k b).lookup k' =
      if k' = k ∧ b = true then some (boolValue (some .commandLine) true) else none := by
  cases b <;> simp [flagEntry]

/-- A table hides no path of one key. -/
@[simp high] theorem hides_table_singleton (o : Option Origin) (es : List (String × Value))
    (k : String) : (Value.table o es).hides [k] = false := by
  rw [hides_table_cons]
  split <;> simp

/-- The top of the command line: the output root if given, the three tables of options, and the
dry runner if asked for. -/
theorem Overrides.lookup_entries (ov : Overrides) (k : String) :
    ov.entries.lookup k =
      if k = "output_dir" then ov.outputDir.map (strValue (some .commandLine))
      else if k = "cluster" then some (ofEntries (some .commandLine) ov.clusterEntries)
      else if k = "client" then some (ofEntries (some .commandLine) ov.clientEntries)
      else if k = "sweep" then some (ofEntries (some .commandLine) ov.sweepEntries)
      else if k = "runner" ∧ ov.dryRun = true then
        some (Runner.dryRun.toValue (some .commandLine))
      else none := by
  rw [Overrides.entries_eq, lookup_sortEntries]
  split_ifs with h₁ h₂ h₃ h₄ h₅ <;> by_cases hd : ov.dryRun <;> simp_all

/-- The command line gives the node `Overrides.option` says at each of its paths, and hides none
of them. -/
theorem Overrides.find?_entries (ov : Overrides) :
    ∀ p ∈ Config.optionPaths,
      (Value.table none ov.entries).find? p = ov.option p ∧
        (Value.table none ov.entries).hides p = false := by
  intro p hp
  have hpaths : Config.optionPaths =
      [["cluster"], ["client"], ["sweep"], ["logging"], ["runner"], ["runner", "type"],
        ["runner", "program"], ["runner", "grace"], ["output_dir"], ["cluster", "backup_disks"],
        ["cluster", "disjunct"], ["cluster", "master_args"], ["cluster", "transport"],
        ["cluster", "timeout"], ["cluster", "debug"], ["cluster", "log_dir"],
        ["cluster", "log_level"], ["cluster", "verbose"], ["client", "binary"],
        ["client", "lrange_len"], ["client", "time_limit"], ["sweep", "servers"],
        ["sweep", "replicas"], ["sweep", "server_span"], ["sweep", "value_size"],
        ["sweep", "key_space_len"], ["sweep", "tests"], ["sweep", "clients"],
        ["sweep", "total_ops"], ["sweep", "per_client_ops"], ["logging", "level"],
        ["logging", "format"]] := rfl
  simp only [hpaths, List.mem_cons, List.not_mem_nil, or_false] at hp
  clear hpaths
  -- with the dry-run switch fixed, `Overrides.option` computes at each path: the nodes are
  -- compared with it by `rfl`, which never unfolds its thirty-odd cases through `simp`
  rcases ov with ⟨_, _, _, _, _, _, _, _, _, _, _, _, _, _, _, _, _, _, _, _, _, _, dryRun⟩
  cases dryRun <;>
  rcases hp with rfl | rfl | rfl | rfl | rfl | rfl | rfl | rfl | rfl | rfl | rfl | rfl | rfl |
    rfl | rfl | rfl | rfl | rfl | rfl | rfl | rfl | rfl | rfl | rfl | rfl | rfl | rfl | rfl |
    rfl | rfl | rfl | rfl
  all_goals
    refine ⟨?_, ?_⟩
    · -- the path's keys looked up in the command line's table and in its record's table
      simp only [find?_table_cons, find?_nil, Option.bind_some, Option.bind_fun_some,
        Overrides.lookup_entries, find?_ofEntries, Overrides.clusterEntries,
        Overrides.clientEntries, Overrides.sweepEntries, List.reverse_append, List.lookup_append,
        reverse_optEntry, reverse_flagEntry, lookup_optEntry, lookup_flagEntry, Option.none_or,
        Option.or_none, String.reduceEq, ↓reduceIte, and_true, true_and, and_false, false_and,
        Bool.false_eq_true]
      rfl
    · simp [hides_table_cons, Overrides.lookup_entries, ofEntries, Runner.toValue]
end CommandLine

/-! ## What loading assumes of its libraries -/

/-- The laws of the libraries that loading relies on. -/
structure Library.Laws (lib : Library) : Prop where
  /-- The merge layers trees key by key. -/
  keyWise : KeyWiseMerge lib.merge
  /-- A YAML text is read as a table with sorted keys. -/
  keyed_readYaml : ∀ {text : String} {src : Option Origin} {es : List (String × Value)},
    lib.readYaml text src = .ok es → Keyed (.table none es)
  /-- The environment gives a table with sorted keys. -/
  keyed_environment : ∀ pre env, Keyed (.table none (lib.environment pre env))
  /-- The command line gives a table with sorted keys. -/
  keyed_overrides : ∀ ov, Keyed (.table none (lib.overrides ov))
  /-- The defaults give a table with sorted keys. -/
  keyed_defaults : Keyed (.table none lib.defaults)
  /-- The command line gives a node exactly for the options given, and hides none of their
  paths: an option that is not given is left out. -/
  overrides_option : ∀ ov, ∀ p ∈ Config.optionPaths,
    (Value.table none (lib.overrides ov)).find? p = ov.option p ∧
      (Value.table none (lib.overrides ov)).hides p = false
  /-- A configuration read from a table with sorted keys holds every setting as the table's node
  at its path gives it, or its default, and the runner as its nodes give it. -/
  decode_reads : ∀ {o : Option Origin} {root : List (String × Value)} {c : Config},
    Keyed (.table o root) → lib.decode (.table o root) = .ok c →
      (∀ l ∈ Config.leaves, l.Reads [.table o root] c) ∧ RunnerReads [.table o root] c.runner

/-- The layers of a configuration, the highest first: the command line, the environment, the
file and the defaults. -/
def Config.stack (lib : Library) (fileEntries : List (String × Value))
    (env : List (String × String)) (ov : Overrides) : List Value :=
  [.table none (lib.overrides ov), .table none (lib.environment envPrefix env),
    .table none fileEntries, .table none lib.defaults]

/-- The tree loading reads a configuration from: the file, the environment and the command line
merged over the defaults. -/
def Config.merged (lib : Library) (fileEntries : List (String × Value))
    (env : List (String × String)) (ov : Overrides) : Value :=
  ([fileEntries, lib.environment envPrefix env, lib.overrides ov].map (Value.table none)).foldl
    lib.merge (.table none lib.defaults)

theorem Config.loadWith_eq_ok {lib : Library} {disk : Disk} {path : Option String}
    {env : List (String × String)} {ov : Overrides} {c : Config}
    (h : Config.loadWith lib disk path env ov = .ok (.ok c)) :
    ∃ fe, lib.fileSource disk path = .ok fe ∧ lib.decode (Config.merged lib fe env ov) = .ok c := by
  unfold Config.loadWith at h
  cases hf : lib.fileSource disk path with
  | error msg => simp [hf] at h
  | ok fe =>
    refine ⟨fe, rfl, ?_⟩
    simp only [hf] at h
    split at h
    · rename_i c' hc
      cases h
      exact hc
    · split at h <;> cases h

namespace Library.Laws

variable {lib : Library} (hlib : lib.Laws)
include hlib

/-- The file layer keeps its tables sorted; a missing file is an empty table. -/
theorem keyed_fileSource {disk : Disk} {path : Option String} {fe : List (String × Value)}
    (h : lib.fileSource disk path = .ok fe) : Keyed (.table none fe) := by
  cases path with
  | none =>
    cases h
    exact Keyed.empty none
  | some p =>
    simp only [Library.fileSource, Library.fileLayer] at h
    cases hread : disk.readFile p with
    | error e =>
      -- no file: an empty table
      simp only [hread, Except.ok.injEq] at h
      subst h
      exact Keyed.empty none
    | ok data =>
      simp only [hread] at h
      cases htext : String.fromUTF8? data with
      | none => simp [htext] at h
      | some text =>
        cases hr : lib.readYaml text (some (.file (shownPath p))) with
        | error e => simp [htext, hr, Except.mapError] at h
        | ok es =>
          simp only [htext, hr, Except.mapError, Except.ok.injEq] at h
          exact h ▸ hlib.keyed_readYaml hr

theorem keyed_upper {fe : List (String × Value)} (hfe : Keyed (.table none fe))
    (env : List (String × String)) (ov : Overrides) :
    ∀ l ∈ [fe, lib.environment envPrefix env, lib.overrides ov].map (Value.table none), Keyed l := by
  simp [hfe, hlib.keyed_environment, hlib.keyed_overrides]

/-- The merged layers are a table with sorted keys. -/
theorem merged_table {fe : List (String × Value)} (hfe : Keyed (.table none fe))
    (env : List (String × String)) (ov : Overrides) :
    ∃ o root, Config.merged lib fe env ov = .table o root ∧ Keyed (.table o root) := by
  have hkeyed : Keyed (Config.merged lib fe env ov) :=
    hlib.keyWise.keyed_foldl hlib.keyed_defaults (hlib.keyed_upper hfe env ov)
  -- the command line, merged last, is a table
  have htable : (Config.merged lib fe env ov).isTable = true := by
    simp only [Config.merged, List.map_cons, List.map_nil, List.foldl_cons, List.foldl_nil,
      hlib.keyWise.isTable_merge]
    rfl
  cases hm : Config.merged lib fe env ov with
  | table o root => exact ⟨o, root, rfl, hm ▸ hkeyed⟩
  | scalar | list =>
    rw [hm] at htable
    cases htable

/-- The nodes of the merged layers are those of the stack. -/
theorem agree_stack {fe : List (String × Value)} (hfe : Keyed (.table none fe))
    (env : List (String × String)) (ov : Overrides) (p : List String) :
    Agree ((Config.merged lib fe env ov).find? p) (topAt (Config.stack lib fe env ov) p) :=
  hlib.keyWise.agree_foldl hlib.keyed_defaults (hlib.keyed_upper hfe env ov) p

/-- Below the command line, the stack decides every path where no option is given. -/
theorem stack_option (fe : List (String × Value)) (env : List (String × String))
    (ov : Overrides) :
    ∀ p ∈ Config.optionPaths, topAt (Config.stack lib fe env ov) p =
      (ov.option p).or (topAt (Config.stack lib fe env ov).tail p) := by
  intro p hp
  obtain ⟨hfind, hhides⟩ := hlib.overrides_option ov p hp
  cases hopt : ov.option p with
  | some v => rw [Config.stack, topAt_cons, hfind, hopt]; rfl
  | none =>
    rw [hopt] at hfind
    rw [Config.stack, topAt_cons_of_find?_none hfind hhides]
    rfl

end Library.Laws

/-! ## The program's libraries -/

theorem keyed_standardDefaults : Keyed (.table none Library.standard.defaults) := by
  have h := keyed_toValue (o := some .defaults) ({} : Config)
  unfold Config.toValue ofEntries at h
  exact Keyed.table_iff.2 (Keyed.table_iff.1 h)

/-- The program's libraries keep the laws: its merge is key-wise, its sources sort their tables,
its command line leaves out what is not given, and its reading of a configuration reads every
setting from its node. -/
theorem Library.standard_laws : Library.standard.Laws where
  keyWise := keyWiseMerge_merge
  keyed_readYaml h := Yaml.keyed_readTable h none
  keyed_environment pre env := Environment.keyed_layer pre env none
  keyed_overrides ov := keyed_overrides ov none
  keyed_defaults := keyed_standardDefaults
  overrides_option := Overrides.find?_entries
  decode_reads hroot h :=
    -- a tree agrees with the stack of that tree alone
    have hag : ∀ p, Agree ((Value.table _ _).find? p) (topAt [.table _ _] p) := fun p => by
      rw [topAt_singleton]
      exact Agree.refl _
    ⟨Config.leaves_read hroot hag h, Config.runner_reads hroot hag h⟩

theorem table_foldl_mergeEntries (o : Option Origin) (ls : List (List (String × Value)))
    (acc : List (String × Value)) :
    Value.table o (ls.foldl mergeEntries acc) =
      (ls.map (Value.table o)).foldl merge (.table o acc) := by
  induction ls generalizing acc with
  | nil => rfl
  | cons l ls ih => simp [ih]

/-- Loading with the program's libraries reads the file layer, then reads the configuration from
the merge of the four layers' entries, the lowest first. -/
theorem Config.load_eq (disk : Disk) (path : Option String) (env : List (String × String))
    (ov : Overrides) :
    Config.load disk path env ov =
      match Library.standard.fileSource disk path with
      | .error msg => .ok (.error msg)
      | .ok fe =>
        match Config.decode .layered (.table none
            ([Library.standard.defaults, fe, Environment.layer envPrefix env, ov.entries].foldl
              mergeEntries [])) with
        | .ok c => .ok (.ok c)
        | .error e =>
          match e.stopped? with
          | some a => .error a
          | none => .ok (.error e.layeredMessage) := by
  have hroot : ∀ fe, Value.table none ([Library.standard.defaults, fe,
      Environment.layer envPrefix env, ov.entries].foldl mergeEntries []) =
      Config.merged .standard fe env ov := fun fe => by
    rw [List.foldl_cons, mergeEntries_nil_left, table_foldl_mergeEntries]
    rfl
  unfold Config.load Config.loadWith
  simp only [hroot]
  rfl

/-! ## Loading -/

/-- A configuration read from the stack of layers over the file entries `fe`, the environment
`env` and the command line `ov`. -/
structure ReadFromLayers (lib : Library) (fe : List (String × Value))
    (env : List (String × String)) (ov : Overrides) (c : Config) : Prop where
  /-- Every setting but the runner's is read from the highest layer with a node at its path. -/
  leaves : ∀ l ∈ Config.leaves, l.Reads (Config.stack lib fe env ov) c
  /-- The runner is read from the highest layer with a node at each of its paths. -/
  runner : RunnerReads (Config.stack lib fe env ov) c.runner
  /-- The command line gives a node exactly where an option is given. -/
  options : ∀ p ∈ Config.optionPaths, topAt (Config.stack lib fe env ov) p =
    (ov.option p).or (topAt (Config.stack lib fe env ov).tail p)

end ClusterSweep.Settings
