import Mathlib
import ClusterSweep.Settings.Config
import ClusterSweep.Proofs.SettingsTrees

/-!
# How records read their settings

A record is read from a table, key by key, or from a list, field by field in declaration order;
unknown keys and extra items are ignored in layered settings, and a setting with no entry keeps
the record's default.  This module says, for every setting of every record of a configuration,
where its value comes from (`Setting.ReadsAt`): the entry of its key in a sorted table, or the
item at its position in a list.

The argument is made once for any record (`Keeps.record`), from what each field of the record
does (`Keeps`): the field of the setting's key reads the value into the setting, and every other
field leaves the setting alone.  Each record of `Config` then gives its settings as a list
(`ClusterOptions.settings` and so on) and shows that its fields keep them.
-/

namespace ClusterSweep.Settings

variable {α β : Type}

/-! ## Reading into a record -/

@[simp] theorem attributed_eq_ok {v : Value} {r : Except DecodeError α} {a : α} :
    attributed v r = .ok a ↔ r = .ok a := by
  cases r <;> simp [attributed, Except.mapError]

@[simp] theorem below_eq_ok {k : String} {r : Except DecodeError α} {a : α} :
    below k r = .ok a ↔ r = .ok a := by
  cases r <;> simp [below, Except.mapError]

theorem bind_pure_eq_ok {ε : Type} {x : Except ε α} {g : α → β} {b : β} :
    (x >>= fun y => pure (g y)) = .ok b ↔ ∃ y, x = .ok y ∧ g y = b := by
  cases x <;> simp [bind, Except.bind, pure, Except.pure]

/-- A setting read from a node where there is one, and left at its default `d` where there is
none. -/
def ReadsOr (read : Decoder β) : Option Value → β → β → Prop
  | some v, x, _ => read v = .ok x
  | none, x, d => x = d

/-- A fold that succeeds takes its first step, and the rest of it succeeds from there. -/
theorem foldlM_cons_eq_ok {γ δ ε : Type} {f : γ → δ → Except ε γ} {e : δ} {es : List δ}
    {acc res : γ} (h : (e :: es).foldlM f acc = .ok res) :
    ∃ acc', f acc e = .ok acc' ∧ es.foldlM f acc' = .ok res := by
  rw [List.foldlM_cons] at h
  cases hf : f acc e with
  | error err =>
    rw [hf] at h
    cases h
  | ok acc' =>
    rw [hf] at h
    exact ⟨acc', rfl, h⟩

section Fold

variable {γ : Type} {f : γ → String × Value → Except DecodeError γ} {k : String}

/-- A fold whose steps at keys other than `k` leave the view `get` of the accumulator alone
leaves it alone over entries of other keys. -/
theorem foldlM_frame (get : γ → β)
    (hother : ∀ acc k' x r, k' ≠ k → f acc (k', x) = .ok r → get r = get acc) :
    ∀ {es : List (String × Value)} {acc res : γ}, (∀ e ∈ es, e.1 ≠ k) →
      es.foldlM f acc = .ok res → get res = get acc
  | [], _, _, _, h => by
    cases h
    rfl
  | e :: _, acc, _, hes, h => by
    obtain ⟨acc', hf, hrest⟩ := foldlM_cons_eq_ok h
    rw [foldlM_frame get hother (fun e' he' => hes e' (.tail _ he')) hrest]
    exact hother acc e.1 e.2 acc' (hes e (.head _)) hf

/-- A fold over entries of distinct keys, whose step at key `k` reads the entry's value with
`read` into the view `get` of the accumulator, and whose steps at other keys leave the view
alone, ends with the view read from the value of `k`, or as it started where there is none. -/
theorem foldlM_reads (read : Decoder β) (get : γ → β)
    (hk : ∀ acc x r, f acc (k, x) = .ok r → read x = .ok (get r))
    (hother : ∀ acc k' x r, k' ≠ k → f acc (k', x) = .ok r → get r = get acc) :
    ∀ {es : List (String × Value)} {acc res : γ}, es.Pairwise (fun a b => a.1 ≠ b.1) →
      es.foldlM f acc = .ok res → ReadsOr read (es.lookup k) (get res) (get acc)
  | [], _, _, _, h => by
    cases h
    rfl
  | (k', x) :: _, acc, _, hes, h => by
    obtain ⟨acc', hf, hrest⟩ := foldlM_cons_eq_ok h
    by_cases hkey : k' = k
    · -- the entry of the key is read, and no later entry has that key
      subst hkey
      have hget := foldlM_frame get hother (fun e he => (List.rel_of_pairwise_cons hes he).symm)
        hrest
      simp only [lookup_cons_eq_ite, if_true, ReadsOr, hget]
      exact hk acc x acc' hf
    · rw [lookup_cons_eq_ite, if_neg (Ne.symm hkey), ← hother acc k' x acc' hkey hf]
      exact foldlM_reads read get hk hother hes.of_cons hrest

end Fold

/-- What the fields of a record do with one setting, the one the record keeps where `get` looks:
the field at position `pos`, named `key`, reads the setting's value with `read`, and every
other field leaves the setting alone.  Field names are distinct, so a key finds one field. -/
structure Keeps (fields : List (Settings.Field α)) (key : String) (pos : Nat) (read : Decoder β)
    (get : α → β) : Prop where
  names_nodup : (fields.map Settings.Field.name).Nodup
  field_at : ∃ f, fields[pos]? = some f ∧ f.name = key ∧
    ∀ v a a', f.update v a = .ok a' → read v = .ok (get a')
  frame : ∀ f ∈ fields.eraseIdx pos, ∀ v a a', f.update v a = .ok a' → get a' = get a

variable {fields : List (Settings.Field α)} {key : String} {pos : Nat} {read : Decoder β}
  {get : α → β}

namespace Keeps

theorem mem_eraseIdx (hk : Keeps fields key pos read get) {f : Settings.Field α} (hf : f ∈ fields)
    (hname : f.name ≠ key) : f ∈ fields.eraseIdx pos := by
  obtain ⟨i, hi⟩ := List.mem_iff_getElem?.1 hf
  obtain ⟨f₀, hf₀, hname₀, -⟩ := hk.field_at
  refine List.mem_eraseIdx_iff_getElem?.2 ⟨i, fun hip => hname ?_, hi⟩
  subst hip
  rw [hf₀] at hi
  cases hi
  exact hname₀

/-- The key of the setting finds the field at the setting's position. -/
theorem find?_key (hk : Keeps fields key pos read get) :
    ∃ f, fields.find? (·.name == key) = some f ∧ fields[pos]? = some f ∧
      ∀ v a a', f.update v a = .ok a' → read v = .ok (get a') := by
  obtain ⟨f₀, hf₀, hname₀, hread⟩ := hk.field_at
  have hmem : f₀ ∈ fields := List.mem_of_getElem? hf₀
  obtain ⟨f, hf⟩ : ∃ f, fields.find? (·.name == key) = some f :=
    Option.isSome_iff_exists.1 (List.find?_isSome.2 ⟨f₀, hmem, by simp [hname₀]⟩)
  have hfname : f.name = key := by simpa using List.find?_some hf
  have hsame : f = f₀ :=
    List.inj_on_of_nodup_map hk.names_nodup (List.mem_of_find?_eq_some hf) hmem
      (hfname.trans hname₀.symm)
  exact ⟨f, hf, hsame ▸ hf₀, hsame ▸ hread⟩

/-- Read from a table whose keys are distinct, the setting is the value of its key. -/
theorem readEntries (hk : Keeps fields key pos read get) {es : List (String × Value)} {init r : α}
    (hes : es.Pairwise (fun a b => a.1 ≠ b.1)) (h : Settings.readEntries fields init es = .ok r) :
    ReadsOr read (es.lookup key) (get r) (get init) := by
  refine foldlM_reads _ _ (fun acc x r hr => ?_) (fun acc k x r hne hr => ?_) hes h
  · obtain ⟨f, hfind, -, hread⟩ := hk.find?_key
    simp only [hfind, below_eq_ok] at hr
    exact hread x acc r hr
  · -- the entry's key finds another field, or none
    cases hfind : fields.find? (·.name == k) with
    | none =>
      simp only [hfind] at hr
      exact congrArg get (Except.ok.inj hr).symm
    | some f =>
      simp only [hfind, below_eq_ok] at hr
      have hname : f.name = k := by simpa using List.find?_some hfind
      exact hk.frame f (hk.mem_eraseIdx (List.mem_of_find?_eq_some hfind) (hname ▸ hne)) x acc r hr

/-- Fields that all leave the setting alone, read over the items, leave it alone. -/
theorem foldlM_zip_frame {fs : List (Settings.Field α)}
    (hfs : ∀ f ∈ fs, ∀ v a a', f.update v a = .ok a' → get a' = get a) :
    ∀ {xs : List (Value × Nat)} {init r : α},
      (fs.zip xs).foldlM (fun acc item => below (toString item.2.2) (item.1.update item.2.1 acc))
        init = .ok r → get r = get init := by
  induction fs with
  | nil =>
    intro xs init r h
    cases h
    rfl
  | cons f fs ih =>
    intro xs init r h
    cases xs with
    | nil =>
      cases h
      rfl
    | cons x xs =>
      simp only [List.zip_cons_cons, List.forall_mem_cons] at h hfs
      obtain ⟨acc, hf, hrest⟩ := foldlM_cons_eq_ok h
      rw [ih hfs.2 hrest]
      exact hfs.1 x.1 init acc (below_eq_ok.1 hf)

/-- Read from a list, the setting is the item at its position. -/
theorem foldlM_zip_reads {fs : List (Settings.Field α)} :
    ∀ {i : Nat} {f₀ : Settings.Field α}, fs[i]? = some f₀ →
      (∀ v a a', f₀.update v a = .ok a' → read v = .ok (get a')) →
      (∀ f ∈ fs.eraseIdx i, ∀ v a a', f.update v a = .ok a' → get a' = get a) →
      ∀ {xs : List Value} {n : Nat} {init r : α},
        (fs.zip (xs.zipIdx n)).foldlM
          (fun acc item => below (toString item.2.2) (item.1.update item.2.1 acc)) init = .ok r →
        ReadsOr read xs[i]? (get r) (get init) := by
  induction fs with
  | nil => simp
  | cons f fs ih =>
    intro i f₀ hf₀ hread hframe xs n init r h
    cases xs with
    | nil =>
      cases h
      rfl
    | cons x xs =>
      simp only [List.zipIdx_cons, List.zip_cons_cons] at h
      obtain ⟨acc, hf, hrest⟩ := foldlM_cons_eq_ok h
      cases i with
      | zero =>
        -- the first item is the setting's; the later fields leave it alone
        simp only [List.getElem?_cons_zero, Option.some.injEq] at hf₀
        subst hf₀
        simp only [List.eraseIdx_cons_zero] at hframe
        have hget : get r = get acc := foldlM_zip_frame hframe hrest
        simp only [List.getElem?_cons_zero, ReadsOr, hget]
        exact hread x init acc (below_eq_ok.1 hf)
      | succ i =>
        simp only [List.getElem?_cons_succ] at hf₀ ⊢
        simp only [List.eraseIdx_cons_succ, List.forall_mem_cons] at hframe
        have hget : get acc = get init := hframe.1 x init acc (below_eq_ok.1 hf)
        rw [← hget]
        exact ih hf₀ hread hframe.2 hrest

theorem readItems (hk : Keeps fields key pos read get) {items : List Value} {init r : α}
    (h : Settings.readItems fields init items = .ok r) :
    ReadsOr read items[pos]? (get r) (get init) := by
  obtain ⟨f₀, hf₀, -, hread⟩ := hk.field_at
  exact foldlM_zip_reads hf₀ hread hk.frame h

end Keeps

/-! ## Records -/

/-- How a record read from node `v` holds a setting of key `key` and position `pos`: read from
the value of its key when `v` is a table, from the item at its position when `v` is a list, and
left at the default `d` where there is none.  No record is read from a scalar. -/
def RecordReads (key : String) (pos : Nat) (read : Decoder β) (v : Value) (x d : β) : Prop :=
  match v with
  | .table _ es => ReadsOr read (es.lookup key) x d
  | .list _ items => ReadsOr read items[pos]? x d
  | .scalar _ _ => False

/-- A record read in layered settings holds each setting its fields keep as `RecordReads` says,
whether it was given as a sorted table or as a list. -/
theorem Keeps.record (hk : Keeps fields key pos read get) {name : String} {init r : α}
    {v : Value} (hv : Keyed v) (h : Settings.record .layered name init fields v = .ok r) :
    RecordReads key pos read v (get r) (get init) := by
  unfold Settings.record at h
  rw [attributed_eq_ok] at h
  cases v with
  | table o es => exact hk.readEntries ((Keyed.ordered hv).imp ne_of_lt) h
  | list o items =>
    cases hr : Settings.readItems fields init items with
    | error e => simp [hr, bind, Except.bind] at h
    | ok r' =>
      simp [hr, bind, Except.bind, pure, Except.pure] at h
      exact h ▸ hk.readItems hr
  | scalar o s => simp [wrongKind, reject] at h

/-- A setting of records of type `α`: its key, its position when the record is given as a list,
how its value is read, and where the record keeps it. -/
structure Setting (α : Type) where
  {β : Type}
  key : String
  pos : Nat
  read : Decoder β
  get : α → β

/-- A record read from node `v`, with defaults `init`, holds the setting as `RecordReads` says. -/
def Setting.ReadsAt (s : Setting α) (v : Value) (r init : α) : Prop :=
  RecordReads s.key s.pos s.read v (s.get r) (s.get init)

/-- The settings of a cluster, in the order of their fields. -/
def ClusterOptions.settings : List (Setting ClusterOptions) :=
  [⟨"backup_disks", 0, u32, (·.backupDisks)⟩, ⟨"disjunct", 1, bool, (·.disjunct)⟩,
   ⟨"master_args", 2, optional text, (·.masterArgs)⟩, ⟨"transport", 3, text, (·.transport)⟩,
   ⟨"timeout", 4, duration, (·.timeout)⟩, ⟨"debug", 5, bool, (·.debug)⟩,
   ⟨"log_dir", 6, path, (·.logDir)⟩,
   ⟨"log_level", 7, variant .layered "ServerLogLevel" serverLogLevelNames, (·.logLevel)⟩,
   ⟨"verbose", 8, bool, (·.verbose)⟩]

theorem decodeCluster_reads {v : Value} {r : ClusterOptions} (hv : Keyed v)
    (h : decodeCluster .layered v = .ok r) : ∀ s ∈ ClusterOptions.settings, s.ReadsAt v r {} := by
  intro s hs
  unfold decodeCluster at h
  refine Keeps.record ?_ hv h
  simp only [ClusterOptions.settings, List.mem_cons, List.not_mem_nil, or_false] at hs
  rcases hs with rfl | rfl | rfl | rfl | rfl | rfl | rfl | rfl | rfl
  all_goals
    refine ⟨by simp, ⟨_, rfl, rfl, fun v a a' h => ?_⟩, ?_⟩
    · obtain ⟨y, hy, rfl⟩ := bind_pure_eq_ok.1 h
      exact hy
    · simp only [List.eraseIdx_cons_zero, List.eraseIdx_cons_succ, List.forall_mem_cons,
        List.not_mem_nil, IsEmpty.forall_iff, implies_true, and_true]
      -- one goal per other field, each setting a field other than the setting's
      repeat' constructor
      all_goals
        intro v a a' h
        obtain ⟨y, -, rfl⟩ := bind_pure_eq_ok.1 h
        rfl

/-- The settings of a benchmark client, in the order of their fields. -/
def ClientOptions.settings : List (Setting ClientOptions) :=
  [⟨"binary", 0, path, (·.binary)⟩, ⟨"lrange_len", 1, u64, (·.lrangeLen)⟩,
   ⟨"time_limit", 2, optional duration, (·.timeLimit)⟩]

theorem decodeClient_reads {v : Value} {r : ClientOptions} (hv : Keyed v)
    (h : decodeClient .layered v = .ok r) : ∀ s ∈ ClientOptions.settings, s.ReadsAt v r {} := by
  intro s hs
  unfold decodeClient at h
  refine Keeps.record ?_ hv h
  simp only [ClientOptions.settings, List.mem_cons, List.not_mem_nil, or_false] at hs
  rcases hs with rfl | rfl | rfl
  all_goals
    refine ⟨by simp, ⟨_, rfl, rfl, fun v a a' h => ?_⟩, ?_⟩
    · obtain ⟨y, hy, rfl⟩ := bind_pure_eq_ok.1 h
      exact hy
    · simp only [List.eraseIdx_cons_zero, List.eraseIdx_cons_succ, List.forall_mem_cons,
        List.not_mem_nil, IsEmpty.forall_iff, implies_true, and_true]
      -- one goal per other field, each setting a field other than the setting's
      repeat' constructor
      all_goals
        intro v a a' h
        obtain ⟨y, -, rfl⟩ := bind_pure_eq_ok.1 h
        rfl

/-- The settings of a sweep, in the order of their fields. -/
def SweepConfig.settings : List (Setting SweepConfig) :=
  [⟨"servers", 0, list u32, (·.servers)⟩, ⟨"replicas", 1, list u32, (·.replicas)⟩,
   ⟨"server_span", 2, list u32, (·.serverSpan)⟩, ⟨"value_size", 3, list u64, (·.valueSize)⟩,
   ⟨"key_space_len", 4, list u64, (·.keySpaceLen)⟩, ⟨"tests", 5, list text, (·.tests)⟩,
   ⟨"clients", 6, list nonzeroU32, (·.clients)⟩, ⟨"total_ops", 7, optional u64, (·.totalOps)⟩,
   ⟨"per_client_ops", 8, optional u64, (·.perClientOps)⟩]

theorem decodeSweep_reads {v : Value} {r : SweepConfig} (hv : Keyed v)
    (h : decodeSweep .layered v = .ok r) : ∀ s ∈ SweepConfig.settings, s.ReadsAt v r {} := by
  intro s hs
  unfold decodeSweep at h
  refine Keeps.record ?_ hv h
  simp only [SweepConfig.settings, List.mem_cons, List.not_mem_nil, or_false] at hs
  rcases hs with rfl | rfl | rfl | rfl | rfl | rfl | rfl | rfl | rfl
  all_goals
    refine ⟨by simp, ⟨_, rfl, rfl, fun v a a' h => ?_⟩, ?_⟩
    · obtain ⟨y, hy, rfl⟩ := bind_pure_eq_ok.1 h
      exact hy
    · simp only [List.eraseIdx_cons_zero, List.eraseIdx_cons_succ, List.forall_mem_cons,
        List.not_mem_nil, IsEmpty.forall_iff, implies_true, and_true]
      -- one goal per other field, each setting a field other than the setting's
      repeat' constructor
      all_goals
        intro v a a' h
        obtain ⟨y, -, rfl⟩ := bind_pure_eq_ok.1 h
        rfl

/-- The settings of logging, in the order of their fields. -/
def Logging.settings : List (Setting Logging) :=
  [⟨"level", 0, decodeLogLevel, (·.level)⟩,
   ⟨"format", 1, variant .layered "LogFormat" LogFormat.names, (·.format)⟩]

theorem decodeLogging_reads {v : Value} {r : Logging} (hv : Keyed v)
    (h : decodeLogging .layered v = .ok r) : ∀ s ∈ Logging.settings, s.ReadsAt v r {} := by
  intro s hs
  unfold decodeLogging at h
  refine Keeps.record ?_ hv h
  simp only [Logging.settings, List.mem_cons, List.not_mem_nil, or_false] at hs
  rcases hs with rfl | rfl
  all_goals
    refine ⟨by simp, ⟨_, rfl, rfl, fun v a a' h => ?_⟩, ?_⟩
    · obtain ⟨y, hy, rfl⟩ := bind_pure_eq_ok.1 h
      exact hy
    · simp only [List.eraseIdx_cons_zero, List.eraseIdx_cons_succ, List.forall_mem_cons,
        List.not_mem_nil, IsEmpty.forall_iff, implies_true, and_true]
      -- the other field of the two sets a field other than the setting's
      intro v a a' h
      obtain ⟨y, -, rfl⟩ := bind_pure_eq_ok.1 h
      rfl

/-- The settings at the top of a configuration, in the order of its fields: the output root and
the five records. -/
def Config.settings : List (Setting Config) :=
  [⟨"output_dir", 0, path, (·.outputDir)⟩, ⟨"cluster", 1, decodeCluster .layered, (·.cluster)⟩,
   ⟨"client", 2, decodeClient .layered, (·.client)⟩,
   ⟨"runner", 3, decodeRunner .layered, (·.runner)⟩,
   ⟨"sweep", 4, decodeSweep .layered, (·.sweep)⟩,
   ⟨"logging", 5, decodeLogging .layered, (·.logging)⟩]

theorem decode_reads {v : Value} {c : Config} (hv : Keyed v)
    (h : Config.decode .layered v = .ok c) : ∀ s ∈ Config.settings, s.ReadsAt v c {} := by
  intro s hs
  unfold Config.decode at h
  refine Keeps.record ?_ hv h
  simp only [Config.settings, List.mem_cons, List.not_mem_nil, or_false] at hs
  rcases hs with rfl | rfl | rfl | rfl | rfl | rfl
  all_goals
    refine ⟨by simp, ⟨_, rfl, rfl, fun v a a' h => ?_⟩, ?_⟩
    · obtain ⟨y, hy, rfl⟩ := bind_pure_eq_ok.1 h
      exact hy
    · simp only [List.eraseIdx_cons_zero, List.eraseIdx_cons_succ, List.forall_mem_cons,
        List.not_mem_nil, IsEmpty.forall_iff, implies_true, and_true]
      -- one goal per other field, each setting a field other than the setting's
      repeat' constructor
      all_goals
        intro v a a' h
        obtain ⟨y, -, rfl⟩ := bind_pure_eq_ok.1 h
        rfl

/-! ## The runner -/

/-- The variant of a runner. -/
def Runner.kind : Runner → RunnerKind
  | .command _ _ => .command
  | .dryRun => .dryRun

theorem path_detached_eq_ok {v : Value} {s : String} :
    path v.detached = .ok s ↔ path v = .ok s := by
  rcases v with ⟨o, _ | _ | _ | _ | _ | _⟩ | ⟨o, xs⟩ | ⟨o, es⟩ <;>
    simp [path, textAs, Value.detached, wrongKind, reject]

theorem duration_detached_eq_ok {v : Value} {d : Duration} :
    duration v.detached = .ok d ↔ duration v = .ok d := by
  rcases v with ⟨o, _ | _ | _ | _ | _ | _⟩ | ⟨o, xs⟩ | ⟨o, es⟩ <;>
    simp [duration, Value.detached, wrongKind, reject]

theorem lookup_filter_of_ne {es : List (String × Value)} {k k' : String} (hk : k ≠ k') :
    (es.filter (·.1 != k')).lookup k = es.lookup k := by
  induction es with
  | nil => rfl
  | cons e es ih =>
    obtain ⟨k'', v⟩ := e
    by_cases h : k'' = k'
    · subst h
      simp [ih, hk]
    · by_cases h' : k = k'' <;> simp [h, h', ih]

/-- The variant of a runner given as a table is named by its `type` entry. -/
theorem runnerParts_table {o : Option Origin} {es : List (String × Value)} {kind : RunnerKind}
    {content : RunnerContent} (hes : Ordered es)
    (h : runnerParts .layered (.table o es) = .ok (kind, content)) :
    (∃ tv, es.lookup "type" = some tv ∧ decodeRunnerKind .layered tv = .ok kind) ∧
      content = .entries (es.filter (·.1 != "type")) := by
  unfold runnerParts at h
  rw [attributed_eq_ok] at h
  simp only [bind, Except.bind] at h
  split at h
  · cases h
  · rename_i kind? hfold
    -- the variant is read from the `type` entry, and every other entry is only taken aside
    have hreads := foldlM_reads (k := "type") (fun x => some <$> decodeRunnerKind .layered x) id
      (fun acc x r hr => ?_) (fun acc k x r hne hr => ?_) (hes.imp ne_of_lt) hfold
    · cases kind? with
      | none => simp [reject] at h
      | some k =>
        simp only [pure, Except.pure, Except.ok.injEq, Prod.mk.injEq] at h
        obtain ⟨rfl, rfl⟩ := h
        refine ⟨?_, rfl⟩
        cases hl : es.lookup "type" with
        | none => simp [ReadsOr, hl] at hreads
        | some tv =>
          simp only [ReadsOr, hl, id] at hreads
          cases hd : decodeRunnerKind .layered tv <;> simp [hd, Functor.map, Except.map] at hreads
          exact ⟨tv, rfl, hd.trans (congrArg _ hreads)⟩
    · simp only [beq_self_eq_true, if_true] at hr
      cases hd : decodeRunnerKind .layered x <;>
        simp [hd, below, Except.mapError, Functor.map, Except.map] at hr ⊢
      exact hr
    · simp only [beq_iff_eq, hne, if_false] at hr
      split at hr
      · cases hr
      · exact (Except.ok.inj hr).symm

/-- A command runner given as entries takes its program and its grace time from the entries of
those keys. -/
theorem decodeCommand_entries {es : List (String × Value)} {r : Runner}
    (hes : es.Pairwise (fun a b => a.1 ≠ b.1)) (h : decodeCommand (.entries es) = .ok r) :
    ∃ pv gv p g, es.lookup "program" = some pv ∧ path pv = .ok p ∧
      es.lookup "grace" = some gv ∧ duration gv = .ok g ∧ r = .command p g := by
  unfold decodeCommand at h
  simp only [bind, Except.bind] at h
  split at h
  · cases h
  · rename_i found hfold
    -- each of the two keys fills its own half of the accumulator
    have hprogram := foldlM_reads (k := "program") (fun x => some <$> path x.detached) Prod.fst
      (by
        intro acc x r hr
        simp only [beq_self_eq_true, if_true] at hr
        cases hd : path x.detached <;> simp [hd, pure, Except.pure, Functor.map, Except.map] at hr ⊢
        rw [← hr])
      (by
        intro acc k x r hne hr
        simp only [beq_iff_eq, hne, if_false] at hr
        split_ifs at hr
        · split at hr
          · cases hr
          · rw [← Except.ok.inj hr]
        · rw [← Except.ok.inj hr])
      hes hfold
    have hgrace := foldlM_reads (k := "grace") (fun x => some <$> duration x.detached) Prod.snd
      (by
        intro acc x r hr
        simp only [beq_self_eq_true, if_true] at hr
        cases hd : duration x.detached <;>
          simp [hd, pure, Except.pure, Functor.map, Except.map] at hr ⊢
        rw [← hr])
      (by
        intro acc k x r hne hr
        simp only [beq_iff_eq, hne, if_false] at hr
        split_ifs at hr
        · split at hr
          · cases hr
          · rw [← Except.ok.inj hr]
        · rw [← Except.ok.inj hr])
      hes hfold
    obtain ⟨p?, g?⟩ := found
    rcases p? with _ | p <;> rcases g? with _ | g <;> simp [reject] at h
    simp only [pure, Except.pure, Except.ok.injEq] at h
    subst h
    cases hp : es.lookup "program" with
    | none => simp [ReadsOr, hp] at hprogram
    | some pv =>
      cases hg : es.lookup "grace" with
      | none => simp [ReadsOr, hg] at hgrace
      | some gv =>
        simp only [ReadsOr, hp, hg] at hprogram hgrace
        refine ⟨pv, gv, p, g, rfl, ?_, rfl, ?_, rfl⟩
        · cases hd : path pv.detached <;> simp [hd, Functor.map, Except.map] at hprogram
          exact path_detached_eq_ok.1 (hd.trans (congrArg _ hprogram))
        · cases hd : duration gv.detached <;> simp [hd, Functor.map, Except.map] at hgrace
          exact duration_detached_eq_ok.1 (hd.trans (congrArg _ hgrace))

/-- A runner given as a sorted table: its variant is named by the `type` entry, and a command
runner's program and grace time are the entries of those keys. -/
theorem decodeRunner_table {o : Option Origin} {es : List (String × Value)} {r : Runner}
    (hes : Ordered es) (h : decodeRunner .layered (.table o es) = .ok r) :
    (∃ tv, es.lookup "type" = some tv ∧ decodeRunnerKind .layered tv = .ok r.kind) ∧
      ∀ p g, r = .command p g → ∃ pv gv, es.lookup "program" = some pv ∧ path pv = .ok p ∧
        es.lookup "grace" = some gv ∧ duration gv = .ok g := by
  unfold decodeRunner at h
  simp only [bind, Except.bind] at h
  split at h
  · cases h
  · rename_i kc hparts
    obtain ⟨kind, content⟩ := kc
    obtain ⟨⟨tv, htv, hkind⟩, rfl⟩ := runnerParts_table hes hparts
    rw [attributed_eq_ok] at h
    cases kind with
    | dryRun =>
      simp only [pure, Except.pure, Except.ok.injEq] at h
      subst h
      exact ⟨⟨tv, htv, hkind⟩, fun p g h => by cases h⟩
    | command =>
      obtain ⟨pv, gv, p, g, hpv, hp, hgv, hg, rfl⟩ :=
        decodeCommand_entries ((hes.imp ne_of_lt).filter _) h
      refine ⟨⟨tv, htv, hkind⟩, fun p' g' heq => ?_⟩
      cases heq
      rw [lookup_filter_of_ne (by decide)] at hpv hgv
      exact ⟨pv, gv, hpv, hp, hgv, hg⟩

end ClusterSweep.Settings
