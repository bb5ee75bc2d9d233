import Mathlib
import ClusterSweep.Proofs.RecordedSweep

/-!
# No two results share a name

Every shape has its own directory: `Shape.dirName` lists the five numbers, each a run of digits
ended by the `_` before the next word, so the name reads back from the left
(`Shape.dirName_injective`).

Inside a directory, a result file is named by its test, its client count and, for the files a
client writes, the client (`ResultFile`).  Every name reads back from the right
(`ResultFile.name_injective`): its ending gives the kind, since no ending ends another; before
it stands the client, or `all`, after the last `-`; before that the client count, a run of
digits after the `t` of `_client`; and what is left is the test, whatever it holds.  A test
without `/` gives a name without `/`, one component more than its directory's path
(`components_joinPath`), so the files of a directory are told apart by their paths too.
-/

namespace ClusterSweep

/-- Two numbers written alike are equal. -/
theorem eq_of_toList_toString_eq {m n : ℕ} (h : (toString m).toList = (toString n).toList) :
    m = n := by
  rwa [String.toList_inj, Nat.toString_eq_repr, Nat.toString_eq_repr, Nat.repr_inj] at h

theorem isDigit_toString (n : ℕ) : ∀ c ∈ (toString n).toList, c.isDigit = true :=
  fun _ hc => isDigit_of_mem_toString hc

/-! ## Directories of shapes -/

namespace Shape

/-- A directory's name spelled out from the left: each number is followed by `_` and the next
word. -/
theorem toList_dirName (s : Shape) : s.dirName.toList =
    "servers".toList ++ ((toString s.servers).toList ++ '_' :: ("replicas".toList ++
      ((toString s.replicas).toList ++ '_' :: ("span".toList ++
        ((toString s.serverSpan).toList ++ '_' :: ("value".toList ++
          ((toString s.valueSize).toList ++ '_' :: ("keys".toList ++
            (toString s.keySpaceLen).toList)))))))) := by
  -- each word after the first starts with the `_` that ends the number before it
  have hwords : "_replicas".toList = '_' :: "replicas".toList ∧
      "_span".toList = '_' :: "span".toList ∧ "_value".toList = '_' :: "value".toList ∧
      "_keys".toList = '_' :: "keys".toList := by
    decide
  -- the body of `dirName`, spelled out: its equation lemma is costly to generate
  show ("servers" ++ toString s.servers ++ "_replicas" ++ toString s.replicas ++
    "_span" ++ toString s.serverSpan ++ "_value" ++ toString s.valueSize ++
    "_keys" ++ toString s.keySpaceLen).toList = _
  simp only [String.toList_append, hwords.1, hwords.2.1, hwords.2.2.1, hwords.2.2.2,
    List.append_assoc, List.cons_append]

/-- Distinct shapes have distinct directories. -/
theorem dirName_injective : Function.Injective dirName := by
  intro s s' h
  have hl := congrArg String.toList h
  rw [toList_dirName, toList_dirName] at hl
  -- each number is a run of digits ended by the `_` of the next word
  obtain ⟨hservers, hl⟩ := RunFiles.run_append_cons_inj (x := '_') (by decide) (isDigit_toString _)
    (isDigit_toString _) (List.append_cancel_left hl)
  obtain ⟨hreplicas, hl⟩ := RunFiles.run_append_cons_inj (x := '_') (by decide) (isDigit_toString _)
    (isDigit_toString _) (List.append_cancel_left hl)
  obtain ⟨hspan, hl⟩ := RunFiles.run_append_cons_inj (x := '_') (by decide) (isDigit_toString _)
    (isDigit_toString _) (List.append_cancel_left hl)
  obtain ⟨hvalue, hl⟩ := RunFiles.run_append_cons_inj (x := '_') (by decide) (isDigit_toString _)
    (isDigit_toString _) (List.append_cancel_left hl)
  have hkeys := List.append_cancel_left hl
  obtain ⟨_, _, _, _, _⟩ := s
  obtain ⟨_, _, _, _, _⟩ := s'
  simp only [mk.injEq]
  exact ⟨eq_of_toList_toString_eq hservers, eq_of_toList_toString_eq hreplicas,
    eq_of_toList_toString_eq hspan, eq_of_toList_toString_eq hvalue,
    eq_of_toList_toString_eq hkeys⟩

end Shape

/-! ## Files of a directory -/

/-- A file of the result layout inside one directory. -/
inductive ResultFile where
  /-- The latencies client `index` of a run of `test` with `clients` clients writes. -/
  | latencies (test : String) (clients index : ℕ)
  /-- The execution summary client `index` of a run writes. -/
  | summary (test : String) (clients index : ℕ)
  /-- The percentile table of a run. -/
  | cdf (test : String) (clients : ℕ)
  /-- The throughput of a run. -/
  | throughput (test : String) (clients : ℕ)
  /-- The table of throughput against clients of a test. -/
  | vsClients (test : String)
  deriving DecidableEq

namespace ResultFile

/-- The test a file belongs to. -/
def test : ResultFile → String
  | latencies t .. | summary t .. | cdf t .. | throughput t .. | vsClients t => t

/-- The file's path in directory `dir`, as the sweep and the reduction name it. -/
def path (dir : String) : ResultFile → String
  | latencies t n i => (RunFiles.mk dir t n).latencies i
  | summary t n i => (RunFiles.mk dir t n).summary i
  | cdf t n => (RunFiles.mk dir t n).cdf
  | throughput t n => (RunFiles.mk dir t n).throughput
  | vsClients t => throughputVsClients dir t

/-- The ending that gives the file's kind. -/
def ending : ResultFile → String
  | latencies .. => "_reqLatencies.dat"
  | summary .. => "_execSummary.dat"
  | cdf .. => "_reqLatencies.cdf"
  | throughput .. => "_throughput.dat"
  | vsClients .. => "_throughput_v_clients.dat"

/-- What stands before the ending: the test, the client count and who wrote the file. -/
def stem : ResultFile → String
  | latencies t n i | summary t n i => t ++ "_client" ++ toString n ++ "-" ++ toString i
  | cdf t n | throughput t n => t ++ "_client" ++ toString n ++ "-" ++ "all"
  | vsClients t => t

/-- The file's name in its directory. -/
def name (f : ResultFile) : String := f.stem ++ f.ending

theorem path_eq (dir : String) (f : ResultFile) : f.path dir = joinPath dir f.name := by
  cases f <;> simp [path, name, stem, ending, RunFiles.latencies, RunFiles.summary, RunFiles.cdf,
    RunFiles.throughput, RunFiles.file, throughputVsClients, String.append_assoc]

/-- The endings of the five kinds. -/
def endings : List String :=
  ["_reqLatencies.dat", "_execSummary.dat", "_reqLatencies.cdf", "_throughput.dat",
    "_throughput_v_clients.dat"]

theorem ending_mem (f : ResultFile) : f.ending ∈ endings := by
  cases f <;> simp [ending, endings]

/-- No ending ends another, and none holds `/`. -/
theorem endings_apart : ∀ s ∈ endings, ∀ s' ∈ endings, s ≠ s' → ¬ s.toList <:+ s'.toList := by
  decide +kernel

theorem slash_not_mem_endings : ∀ s ∈ endings, '/' ∉ s.toList ∧ 2 < s.length := by
  decide

/-- The stem of a run's file or a client's: the test, `_clien`, then `t`, the client count, `-`
and who wrote it. -/
theorem toList_clientStem (t who : String) (n : ℕ) :
    (t ++ "_client" ++ toString n ++ "-" ++ who).toList =
      ((t.toList ++ "_clien".toList) ++ 't' :: (toString n).toList) ++ '-' :: who.toList := by
  simp

/-- A stem reads back from the right: who wrote the file up to the last `-`, then the client
count up to the `t` before it, then the test. -/
theorem clientStem_inj {t t' who who' : String} {n n' : ℕ} (hw : '-' ∉ who.toList)
    (hw' : '-' ∉ who'.toList)
    (h : t ++ "_client" ++ toString n ++ "-" ++ who = t' ++ "_client" ++ toString n' ++ "-" ++ who') :
    t = t' ∧ n = n' ∧ who = who' := by
  have hl := congrArg String.toList h
  rw [toList_clientStem, toList_clientStem] at hl
  obtain ⟨hl, hwho⟩ := RunFiles.append_cons_run_inj (q := (· != '-')) (by decide)
    (fun c hc => bne_iff_ne.2 fun hc' => hw (hc' ▸ hc))
    (fun c hc => bne_iff_ne.2 fun hc' => hw' (hc' ▸ hc)) hl
  obtain ⟨hl, hcount⟩ := RunFiles.append_cons_run_inj (by decide) (isDigit_toString _)
    (isDigit_toString _) hl
  exact ⟨String.toList_inj.1 (List.append_cancel_right hl), eq_of_toList_toString_eq hcount,
    String.toList_inj.1 hwho⟩

theorem dash_not_mem_toString (n : ℕ) : '-' ∉ (toString n).toList := fun h => by
  simpa using isDigit_of_mem_toString h

/-- Every file of a directory has its own name, whatever its test holds: the ending gives the
kind, and the stem the test, the client count and the client. -/
theorem name_injective : Function.Injective name := by
  intro f g h
  have hend : f.ending = g.ending := by
    by_contra hne
    exact append_ne_append (endings_apart _ f.ending_mem _ g.ending_mem hne)
      (endings_apart _ g.ending_mem _ f.ending_mem (Ne.symm hne)) h
  have hstem : f.stem = g.stem := by
    unfold name at h
    rw [hend] at h
    exact (String.append_left_inj _).1 h
  have hall : '-' ∉ "all".toList := by decide
  -- a kind's ending is no other kind's
  cases f <;> cases g <;> simp only [ending, String.reduceEq] at hend <;> simp only [stem] at hstem
  case latencies.latencies | summary.summary =>
    obtain ⟨rfl, rfl, hi⟩ := clientStem_inj (dash_not_mem_toString _) (dash_not_mem_toString _) hstem
    rw [eq_of_toList_toString_eq (congrArg String.toList hi)]
  case cdf.cdf | throughput.throughput =>
    obtain ⟨rfl, rfl, -⟩ := clientStem_inj hall hall hstem
    rfl
  case vsClients.vsClients => rw [hstem]

theorem slash_not_mem_name {f : ResultFile} (h : '/' ∉ f.test.toList) : '/' ∉ f.name.toList := by
  have hlit : '/' ∉ "_client".toList ∧ '/' ∉ "-".toList ∧ '/' ∉ "all".toList := by decide
  have hend := (slash_not_mem_endings _ f.ending_mem).1
  rw [name, String.toList_append, List.mem_append, not_or]
  refine ⟨?_, hend⟩
  cases f <;> simp only [stem, test, String.toList_append, List.mem_append, slash_not_mem_toString,
    hlit.1, hlit.2.1, hlit.2.2, or_false] at h ⊢ <;> exact h

theorem two_lt_length_name (f : ResultFile) : 2 < f.name.length := by
  have := (slash_not_mem_endings _ f.ending_mem).2
  rw [name, String.length_append]
  omega

/-- A file of a test without `/` is one component below its directory. -/
theorem components_path (dir : String) {f : ResultFile} (h : '/' ∉ f.test.toList) :
    components (f.path dir) = components dir ++ [f.name] := by
  have hlen := two_lt_length_name f
  rw [path_eq]
  exact Disk.components_joinPath (slash_not_mem_name h)
    (fun he => absurd hlen (by rw [he]; decide)) (fun he => absurd hlen (by rw [he]; decide))

end ResultFile

/-- The result layout never puts two results in one place.  Distinct shapes have distinct
directories.  Inside a directory, distinct files (of another kind, test, client count or client)
have distinct names, whatever the tests hold, and, for tests without `/`, paths that name
distinct places. -/
theorem layout_names_distinct :
    Function.Injective Shape.dirName ∧ Function.Injective ResultFile.name ∧
    ∀ (dir : String) (f g : ResultFile), '/' ∉ f.test.toList → '/' ∉ g.test.toList →
      components (f.path dir) = components (g.path dir) → f = g := by
  refine ⟨Shape.dirName_injective, ResultFile.name_injective, fun dir f g hf hg h => ?_⟩
  rw [ResultFile.components_path dir hf, ResultFile.components_path dir hg] at h
  exact ResultFile.name_injective (List.append_cancel_left h |> List.singleton_injective)

/-- The run's throughput file in `out`, compared with itself. -/
theorem layout_names_distinct_throughput :
    '/' ∉ "get".toList ∧
      ResultFile.throughput "get" 8 = ResultFile.throughput "get" 8 :=
  ⟨by decide, layout_names_distinct.2.2 "out" _ _ (by decide) (by decide) rfl⟩

end ClusterSweep
