import Mathlib
import ClusterSweep.Proofs.DiskFrame
import ClusterSweep.Proofs.OutputAgreement

/-!
# Reducing twice

A reduction reads the files that the benchmark clients wrote, `…_reqLatencies.dat` and
`…_execSummary.dat`, and writes files of other names, `…_reqLatencies.cdf`, `…_throughput.dat`
and `…_throughput_v_clients.dat`, in the same directories.  No name of the one kind ends like a
name of the other, and on a host whose links keep their names a file's place ends in its name
(`Disk.getLast?_child`), so no file a reduction writes is a file it reads, whatever the tests,
client counts and indices.  Nor is it a directory on the way: a file is written only where the
walk got through, so every place on the way is a directory, which the file is not.  The places a
reduction reads are `Observed`.

A link that stands for a place of another name breaks this: a link from a run's
`…-all_throughput.dat` to its `…-1_execSummary.dat` makes the first reduction write the
throughput over the summary it read, and the second reduction fails to read it and reports the
run as failed (`reduce_twice_through_link`).

Writing files changes no directory and nothing `Observed`, so a reduction leaves a disk `Alike`
to the one it started from (`reduce_keeps`), and a reduction from alike disks runs alike: the
same answer, and where the disks it leaves differ they are as they were (`reduce_replays`).
Reducing again on the disk the first reduction left is therefore reducing on a disk alike to the
first, and it gives the same report and writes again what is there already
(`reduce_idempotent`).
-/

namespace ClusterSweep

/-! ## Names -/

/-- The endings of the names of the files that the benchmark clients write. -/
def readSuffixes : List String := ["reqLatencies.dat", "execSummary.dat"]

/-- The endings of the names of the files that a reduction writes. -/
def writeSuffixes : List String := ["reqLatencies.cdf", "throughput.dat", "_throughput_v_clients.dat"]

theorem suffixes_apart : ∀ s ∈ readSuffixes, ∀ t ∈ writeSuffixes,
    ¬ s.toList <:+ t.toList ∧ ¬ t.toList <:+ s.toList := by
  decide +kernel

/-- Every written name ends in a letter, and in neither `/` nor `.`. -/
theorem writeSuffixes_last : ∀ t ∈ writeSuffixes, t.toList ≠ [] ∧
    t.toList.getLast?.all (fun ch => !ch.isDigit && ch != '/' && ch != '.') = true := by
  decide

theorem suffixes_long : ∀ s ∈ readSuffixes ++ writeSuffixes, 2 < s.length ∧ '/' ∉ s.toList := by
  decide

/-- Two texts whose endings are not suffixes of each other are different. -/
theorem append_ne_append {x y s t : String} (hst : ¬ s.toList <:+ t.toList)
    (hts : ¬ t.toList <:+ s.toList) : x ++ s ≠ y ++ t := by
  intro h
  have hlist : x.toList ++ s.toList = y.toList ++ t.toList := by
    simpa using congrArg String.toList h
  have hs : s.toList <:+ y.toList ++ t.toList := hlist ▸ List.suffix_append _ _
  rcases List.suffix_or_suffix_of_suffix hs (List.suffix_append _ _) with h₁ | h₂
  · exact hst h₁
  · exact hts h₂

theorem getLast?_toList_append {x t : String} (ht : t.toList ≠ []) :
    (x ++ t).toList.getLast? = t.toList.getLast? := by
  rw [String.toList_append, List.getLast?_append_of_ne_nil _ ht]

/-- A number is written in digits. -/
theorem isDigit_of_mem_toString {n : ℕ} {ch : Char} (h : ch ∈ (toString n).toList) :
    ch.isDigit := by
  rw [Nat.toString_eq_ofList_toDigits, String.toList_ofList] at h
  exact Nat.isDigit_of_mem_toDigits (by decide) (by decide) h

theorem slash_not_mem_toString (n : ℕ) : '/' ∉ (toString n).toList := fun h => by
  simpa using isDigit_of_mem_toString h

/-- The directory of a shape has a plain name that ends in a digit. -/
theorem Shape.dirName_plain (σ : Shape) : '/' ∉ σ.dirName.toList ∧ 2 < σ.dirName.length ∧
    ∃ ch, σ.dirName.toList.getLast? = some ch ∧ ch.isDigit := by
  have hne : (toString σ.keySpaceLen).toList ≠ [] := by
    simp [Nat.toDigits_ne_nil]
  -- unfolding rather than rewriting: a rewrite's closing `rfl` would try to evaluate the name
  unfold Shape.dirName
  refine ⟨?_, ?_, ?_⟩
  · simp only [String.toList_append, List.mem_append, slash_not_mem_toString, or_false]
    decide
  · simp only [String.length_append]
    have : ("servers" : String).length = 7 := rfl
    omega
  · rw [getLast?_toList_append hne]
    obtain ⟨ch, hch⟩ := Option.ne_none_iff_exists'.1 (List.getLast?_eq_none_iff.not.2 hne)
    exact ⟨ch, hch, isDigit_of_mem_toString (List.mem_of_getLast? hch)⟩

/-- A shape's directory is named unlike any file that a reduction writes. -/
theorem Shape.dirName_ne_written (σ : Shape) (x : String) {t : String} (ht : t ∈ writeSuffixes) :
    σ.dirName ≠ x ++ t := by
  intro h
  obtain ⟨-, -, ch, hch, hdigit⟩ := σ.dirName_plain
  obtain ⟨hne, hlast⟩ := writeSuffixes_last t ht
  rw [h, getLast?_toList_append hne] at hch
  simp [hch, hdigit] at hlast

/-! ## Places of a reduction -/

namespace Reduction

open Disk Latency Throughput

variable (h : Host.System)

/-- The places that the walk to the directory `root` looks up. -/
def rootTrail (root : String) : List (List String) :=
  dirTrail h (origin (components root)).1 (origin (components root)).2

/-- The place of the directory `root`. -/
def rootPlace (root : String) : List String :=
  endPlace h (origin (components root)).1 (origin (components root)).2

/-- A name longer than two characters is no empty name, `.`, `..` or `/`. -/
theorem ne_of_two_lt_length {name : String} (h : 2 < name.length) :
    name ≠ "" ∧ name ≠ "." ∧ name ≠ ".." ∧ name ≠ "/" := by
  refine ⟨?_, ?_, ?_, ?_⟩ <;> rintro rfl <;> revert h <;> decide

section Entry

variable {root name : String}

/-- Resolving an entry of a shape's directory looks up the places on the way to `root` and the
shape's directory. -/
theorem lookups_entry (σ : Shape) (hslash : '/' ∉ name.toList) (hlen : 2 < name.length) :
    lookups h (components (joinPath (joinPath root σ.dirName) name)) =
      rootTrail h root ++ [child h (rootPlace h root) σ.dirName] := by
  obtain ⟨hds, hdl, -⟩ := σ.dirName_plain
  obtain ⟨hd₁, hd₂, hd₃, hd₄⟩ := ne_of_two_lt_length hdl
  obtain ⟨hn₁, hn₂, -, -⟩ := ne_of_two_lt_length hlen
  rw [components_joinPath hslash hn₁ hn₂, components_joinPath hds hd₁ hd₂, List.append_assoc]
  exact lookups_append_pair h hd₄ hd₃

theorem reach_entry (σ : Shape) (hslash : '/' ∉ name.toList) (hlen : 2 < name.length) :
    reach h (components (joinPath (joinPath root σ.dirName) name)) =
      child h (child h (rootPlace h root) σ.dirName) name := by
  obtain ⟨hds, hdl, -⟩ := σ.dirName_plain
  obtain ⟨hd₁, hd₂, hd₃, hd₄⟩ := ne_of_two_lt_length hdl
  obtain ⟨hn₁, hn₂, hn₃, -⟩ := ne_of_two_lt_length hlen
  rw [components_joinPath hslash hn₁ hn₂, components_joinPath hds hd₁ hd₂, List.append_assoc]
  exact reach_append_pair h hd₄ hd₃ hn₃

end Entry

/-- The places that a reduction below `root` reads: those on the way to `root`, the directories
of the shapes in it, and the files of the benchmark clients in those. -/
def Observed (root : String) (p : List String) : Prop :=
  p ∈ rootTrail h root ∨ (∃ σ : Shape, p = child h (rootPlace h root) σ.dirName) ∨
    ∃ (σ : Shape) (x : String), ∃ s ∈ readSuffixes,
      p = child h (child h (rootPlace h root) σ.dirName) (x ++ s)

/-- The host `h` keeps the names of the places below `root`: the directory of a shape lies at a
place that ends in its name, and so does every entry of it.  A host whose links all keep their
names does so below every root (`namesKept_of_keepsNames`). -/
def NamesKept (root : String) : Prop :=
  ∀ (σ : Shape) (name : String),
    (child h (rootPlace h root) σ.dirName).getLast? = some σ.dirName ∧
      (child h (child h (rootPlace h root) σ.dirName) name).getLast? = some name

theorem namesKept_of_keepsNames {h : Host.System} (hk : h.KeepsNames) (root : String) :
    NamesKept h root :=
  fun _ _ => ⟨getLast?_child hk _ _, getLast?_child hk _ _⟩

section NamesKept

variable {h : Host.System} {root : String} (hn : NamesKept h root)
include hn

/-- Below a root whose names are kept, an entry of a shape's directory of another name than a
shape's directory lies elsewhere. -/
theorem NamesKept.entry_ne_dir {σ σ' : Shape} {name : String} (hne : name ≠ σ'.dirName) :
    child h (child h (rootPlace h root) σ.dirName) name ≠ child h (rootPlace h root) σ'.dirName := by
  intro heq
  have hlast := congrArg List.getLast? heq
  rw [(hn σ name).2, (hn σ' name).1] at hlast
  exact hne (Option.some.inj hlast)

/-- Below a root whose names are kept, entries of shapes' directories of different names lie at
different places. -/
theorem NamesKept.entry_ne_entry {σ σ' : Shape} {name name' : String} (hne : name ≠ name') :
    child h (child h (rootPlace h root) σ.dirName) name ≠
      child h (child h (rootPlace h root) σ'.dirName) name' := by
  intro heq
  have hlast := congrArg List.getLast? heq
  rw [(hn σ name).2, (hn σ' name').2] at hlast
  exact hne (Option.some.inj hlast)

end NamesKept

/-- A path to a file of the directory of a shape below `root` whose name has no `/` and ends in
one of `suffixes`. -/
def EntryPath (root : String) (suffixes : List String) (path : String) : Prop :=
  ∃ (σ : Shape) (x : String), ∃ s ∈ suffixes, '/' ∉ (x ++ s).toList ∧
    path = joinPath (joinPath root σ.dirName) (x ++ s)

/-- A path whose resolution on the host `h` looks only at places of `O`, and whose file is
one. -/
def ReadsIn (O : List String → Prop) (path : String) : Prop :=
  (∀ q ∈ lookups h (components path), O q) ∧ O (reach h (components path))

/-- A path whose resolution on the host `h` looks only at places of `O`, which does not name a
directory by its form, and whose file on a disk of that host is never a place of `O`. -/
def WritesOutside (O : List String → Prop) (path : String) : Prop :=
  (∀ q ∈ lookups h (components path), O q) ∧ namesDirectory path = false ∧
    ∀ (d : Disk) (p : List String), d.host = h → d.fileSlot path = .ok p → ¬ O p

theorem two_lt_length_of_mem {x s : String} (hs : s ∈ readSuffixes ++ writeSuffixes) :
    2 < (x ++ s).length := by
  have := (suffixes_long s hs).1
  simp only [String.length_append]
  omega

theorem lookups_observed {root : String} {sfx : List String} {path : String}
    (hsfx : sfx ⊆ readSuffixes ++ writeSuffixes) (he : EntryPath root sfx path) :
    ∀ q ∈ lookups h (components path), Observed h root q := by
  obtain ⟨σ, x, s, hs, hslash, rfl⟩ := he
  rw [lookups_entry h σ hslash (two_lt_length_of_mem (hsfx hs))]
  intro q hq
  rcases List.mem_append.1 hq with hroot | hdir
  · exact .inl hroot
  · exact .inr (.inl ⟨σ, List.mem_singleton.1 hdir⟩)

theorem EntryPath.readsIn {root path : String} (he : EntryPath root readSuffixes path) :
    ReadsIn h (Observed h root) path := by
  refine ⟨lookups_observed h (List.subset_append_left _ _) he, ?_⟩
  obtain ⟨σ, x, s, hs, hslash, rfl⟩ := he
  rw [reach_entry h σ hslash (two_lt_length_of_mem (List.mem_append_left _ hs))]
  exact .inr (.inr ⟨σ, x, s, hs, rfl⟩)

/-- A path joined to a directory ends in the name joined. -/
theorem joinPath_eq_append (dir name : String) : ∃ pre, joinPath dir name = pre ++ name := by
  unfold joinPath
  split_ifs
  · exact ⟨"", by simp⟩
  · exact ⟨"", by simp⟩
  · exact ⟨dir, rfl⟩
  · exact ⟨dir ++ "/", rfl⟩

/-- A path whose last character is neither `/` nor `.` does not name a directory by its form. -/
theorem namesDirectory_eq_false {path : String}
    (h : path.toList.getLast?.all (fun ch => ch != '/' && ch != '.') = true) :
    namesDirectory path = false := by
  have hlast : ∀ t : List Char, t ≠ [] → t <:+ path.toList → path.toList.getLast? = t.getLast? := by
    rintro t ht ⟨u, hu⟩
    rw [← hu, List.getLast?_append_of_ne_nil _ ht]
  unfold namesDirectory
  simp only [Bool.or_eq_false_iff, ← String.endsWith_toSlice, String.Slice.endsWith_string_eq_false_iff,
    String.copy_toSlice]
  constructor
  · intro hs
    rw [hlast _ (by decide) hs] at h
    simp at h
  · intro hs
    rw [hlast _ (by decide) hs] at h
    simp at h

theorem EntryPath.writesOutside {h : Host.System} {root path : String} (hn : NamesKept h root)
    (he : EntryPath root writeSuffixes path) : WritesOutside h (Observed h root) path := by
  refine ⟨lookups_observed h (List.subset_append_right _ _) he, ?_, ?_⟩
  · obtain ⟨σ, x, t, ht, -, rfl⟩ := he
    obtain ⟨pre, hpre⟩ := joinPath_eq_append (joinPath root σ.dirName) (x ++ t)
    obtain ⟨hne, hall⟩ := writeSuffixes_last t ht
    apply namesDirectory_eq_false
    rw [hpre, ← String.append_assoc, getLast?_toList_append hne]
    revert hall
    cases t.toList.getLast? <;> simp_all
  · -- the file written is no directory, unlike every place on its way, and its name is unlike
    -- any directory's or any client file's
    intro d p hdh hslot
    obtain ⟨σ, x, t, ht, hslash, rfl⟩ := he
    have hlen := two_lt_length_of_mem (x := x) (List.mem_append_right _ ht)
    obtain ⟨hreach, hdirs, hnotdir⟩ := fileSlot_eq_ok hslot
    rw [hdh, reach_entry h σ hslash hlen] at hreach
    rw [hdh, lookups_entry h σ hslash hlen] at hdirs
    subst hreach
    rintro (hroot | ⟨σ', heq⟩ | ⟨σ', x', s, hs, heq⟩)
    · exact hnotdir (hdirs _ (List.mem_append_left _ hroot))
    · exact hn.entry_ne_dir (σ'.dirName_ne_written x ht).symm heq
    · have happart := suffixes_apart s hs t ht
      exact hn.entry_ne_entry (append_ne_append happart.2 happart.1) heq

/-! ## Programs that run alike -/

section Programs

variable {ε α β : Type} {O : List String → Prop}

/-- Two runs from the disks `d` and `d'`: the same answer, alike disks after, on the host of
`d`, and where those differ they are as `d` and `d'` were. -/
def RunsAlike (O : List String → Prop) (d d' : Disk) (r r' : Except ε α × Disk) : Prop :=
  r.1 = r'.1 ∧ Alike O r.2 r'.2 ∧ Tracks d d' r.2 r'.2 ∧ r.2.host = d.host

/-- A program that runs alike from disks of the host `h` alike at `O`. -/
def Replays (h : Host.System) (O : List String → Prop) (m : Stopping ε Disk α) : Prop :=
  ∀ d d', d.host = h → Alike O d d' → RunsAlike O d d' (m.runFrom d) (m.runFrom d')

/-- A program that leaves every disk of the host `h` alike at `O` to what it was. -/
def Keeps (h : Host.System) (O : List String → Prop) (m : Stopping ε Disk α) : Prop :=
  ∀ d, d.host = h → Alike O d (m.runFrom d).2

variable {h : Host.System}

/-- Two runs with the same answer that changed alike disks alike. -/
theorem RunsAlike.written {d d' d₁ d₁' : Disk} (r : Except ε α) (ha : Alike O d₁ d₁')
    (ht : Tracks d d' d₁ d₁') (hh : d₁.host = d.host) : RunsAlike O d d' (r, d₁) (r, d₁') :=
  ⟨rfl, ha, ht, hh⟩

/-- Two runs with the same answer that changed nothing. -/
theorem RunsAlike.same {d d' : Disk} (r : Except ε α) (ha : Alike O d d') :
    RunsAlike O d d' (r, d) (r, d') :=
  .written r ha (Tracks.refl d d') rfl

theorem Replays.pure (a : α) : Replays h O (pure a : Stopping ε Disk α) :=
  fun _ _ _ ha => .same _ ha

theorem Replays.bind {m : Stopping ε Disk α} {k : α → Stopping ε Disk β} (hm : Replays h O m)
    (hk : ∀ a, Replays h O (k a)) : Replays h O (m >>= k) := by
  intro d d' hd ha
  have hrun := hm d d' hd ha
  rw [Stopping.runFrom_bind, Stopping.runFrom_bind]
  generalize m.runFrom d = x at hrun
  generalize m.runFrom d' = x' at hrun
  obtain ⟨r, d₁⟩ := x
  obtain ⟨r', d₁'⟩ := x'
  obtain ⟨hres, halike, htracks, hhost⟩ := hrun
  dsimp only at hres hhost
  subst hres
  -- the second program starts from the disks the first left, with the same value
  cases r with
  | error e => exact .written _ halike htracks hhost
  | ok a =>
    obtain ⟨hres₂, halike₂, htracks₂, hhost₂⟩ := hk a d₁ d₁' (hhost.trans hd) halike
    exact ⟨hres₂, halike₂, htracks.trans htracks₂, hhost₂.trans hhost⟩

theorem Replays.foldlM {f : β → α → Stopping ε Disk β} {l : List α}
    (hf : ∀ a ∈ l, ∀ b, Replays h O (f b a)) (b : β) : Replays h O (l.foldlM f b) := by
  induction l generalizing b with
  | nil => exact Replays.pure b
  | cons a l ih =>
    rw [List.foldlM_cons]
    exact (hf a (.head _) b).bind fun b' => ih (fun a' ha' => hf a' (.tail _ ha')) b'

theorem Keeps.pure (a : α) : Keeps h O (pure a : Stopping ε Disk α) :=
  fun d _ => Alike.refl O d

theorem Keeps.bind {m : Stopping ε Disk α} {k : α → Stopping ε Disk β} (hm : Keeps h O m)
    (hk : ∀ a, Keeps h O (k a)) : Keeps h O (m >>= k) := by
  intro d hd
  have h₁ := hm d hd
  rw [Stopping.runFrom_bind]
  generalize m.runFrom d = x at h₁
  obtain ⟨r, d₁⟩ := x
  cases r with
  | error e => exact h₁
  | ok a => exact h₁.trans (hk a d₁ (h₁.host.trans hd))

theorem Keeps.foldlM {f : β → α → Stopping ε Disk β} {l : List α}
    (hf : ∀ a ∈ l, ∀ b, Keeps h O (f b a)) (b : β) : Keeps h O (l.foldlM f b) := by
  induction l generalizing b with
  | nil => exact Keeps.pure b
  | cons a l ih =>
    rw [List.foldlM_cons]
    exact (hf a (.head _) b).bind fun b' => ih (fun a' ha' => hf a' (.tail _ ha')) b'

end Programs

/-! ## Reading and writing alike -/

section ReadWrite

variable {O : List String → Prop} {d d' d₁ : Disk}

/-- A fold whose steps agree on the list's elements. -/
theorem foldlM_congr_of_mem {m : Type → Type} [Monad m] {α β : Type} {f g : β → α → m β} :
    ∀ {l : List α}, (∀ a ∈ l, ∀ b, f b a = g b a) → ∀ b, l.foldlM f b = l.foldlM g b
  | [], _, _ => rfl
  | a :: l, h, b => by
    simp only [List.foldlM_cons, h a (.head _) b]
    congr 1
    funext b'
    exact foldlM_congr_of_mem (fun a' ha' => h a' (.tail _ ha')) b'

theorem mapM_congr_of_mem {m : Type → Type} [Monad m] [LawfulMonad m] {α β : Type}
    {f g : α → m β} : ∀ {l : List α}, (∀ a ∈ l, f a = g a) → l.mapM f = l.mapM g
  | [], _ => rfl
  | a :: l, h => by
    rw [List.mapM_cons, List.mapM_cons, h a (.head _),
      mapM_congr_of_mem fun a' ha' => h a' (.tail _ ha')]

theorem readSamples_congr {paths : List String}
    (h : ∀ path ∈ paths, d.readFile path = d'.readFile path) :
    readSamples d paths = readSamples d' paths := by
  unfold readSamples
  exact foldlM_congr_of_mem (fun path hpath acc => by rw [h path hpath]) []

theorem readSummaries_congr {paths : List String}
    (h : ∀ path ∈ paths, d.readFile path = d'.readFile path) :
    readSummaries d paths = readSummaries d' paths := by
  unfold readSummaries
  exact mapM_congr_of_mem fun path hpath => by rw [h path hpath]

/-- A run's files read alike from alike disks. -/
theorem readRun_eq {f : RunFiles} (h : Alike O d d')
    (hreads : ∀ path ∈ f.allLatencies ++ f.allSummaries, ReadsIn d.host O path) :
    readRun d f = readRun d' f := by
  have hread : ∀ path ∈ f.allLatencies ++ f.allSummaries, d.readFile path = d'.readFile path :=
    fun path hpath => h.readFile_eq (hreads path hpath).1 (hreads path hpath).2
  unfold readRun
  rw [readSamples_congr fun path hpath => hread path (List.mem_append_left _ hpath),
    readSummaries_congr fun path hpath => hread path (List.mem_append_right _ hpath)]

theorem writeText_eq (d : Disk) (path text : String) :
    writeText d path text = match d.fileSlot path with
      | .error e => .error (.io path e)
      | .ok p => .ok (d.put p (.file text.toUTF8)) := by
  unfold writeText
  rw [createFile_eq]
  cases d.fileSlot path <;> rfl

/-- Writing a text changes no host. -/
theorem writeText_host {path text : String} (h : writeText d path text = .ok d₁) :
    d₁.host = d.host := by
  rw [writeText_eq] at h
  cases hp : d.fileSlot path with
  | error e => simp [hp] at h
  | ok p =>
    simp only [hp, Except.ok.injEq] at h
    subst h
    rfl

/-- A text written alike on alike disks: the same failure, or alike disks changed in step. -/
theorem writeText_alike {path : String} (h : Alike O d d') (hw : WritesOutside d.host O path)
    (text : String) :
    (∃ e, writeText d path text = .error e ∧ writeText d' path text = .error e) ∨
      ∃ d₁ d₁', writeText d path text = .ok d₁ ∧ writeText d' path text = .ok d₁' ∧
        Alike O d₁ d₁' ∧ Tracks d d' d₁ d₁' := by
  have hslot := h.fileSlot_eq hw.1 hw.2.1
  rw [writeText_eq, writeText_eq, ← hslot]
  cases hp : d.fileSlot path with
  | error e => exact .inl ⟨_, rfl, rfl⟩
  | ok p =>
    have hp' : d'.fileSlot path = .ok p := hslot ▸ hp
    obtain ⟨halike, htracks⟩ :=
      h.put (fileSlot_eq_ok hp).2.2 (fileSlot_eq_ok hp').2.2 text.toUTF8
    exact .inr ⟨_, _, rfl, rfl, halike, htracks⟩

/-- A text written outside `O` leaves the disk alike. -/
theorem writeText_keeps {path text : String} (hw : WritesOutside d.host O path)
    (h : writeText d path text = .ok d₁) : Alike O d d₁ := by
  rw [writeText_eq] at h
  cases hp : d.fileSlot path with
  | error e => simp [hp] at h
  | ok p =>
    simp only [hp, Except.ok.injEq] at h
    subst h
    exact alike_put (hw.2.2 d p rfl hp) (fileSlot_eq_ok hp).2.2 _

end ReadWrite

/-! ## A reduction runs alike -/

/-- What reducing one run on the host `h` needs of the places `O`: its files read within them,
and the two it writes outside. -/
structure RunWithin (h : Host.System) (O : List String → Prop) (f : RunFiles) : Prop where
  reads : ∀ path ∈ f.allLatencies ++ f.allSummaries, ReadsIn h O path
  cdf : WritesOutside h O f.cdf
  throughput : WritesOutside h O f.throughput

theorem reduceRun_runFrom (f : RunFiles) (d : Disk) :
    (reduceRun f).runFrom d =
      match readRun d f with
      | .error e => (.ok (.error e), d)
      | .ok (table, summaries) =>
        match aggregate summaries with
        | .error o => (.error o, d)
        | .ok (.error e) => (.ok (.error e), d)
        | .ok (.ok x) =>
          match writeText d f.cdf table.text with
          | .error e => (.ok (.error e), d)
          | .ok d₁ =>
            match writeText d₁ f.throughput (Binary64.fixedText 2 x ++ "\n") with
            | .error e => (.ok (.error e), d₁)
            | .ok d₂ => (.ok (.ok x), d₂) := by
  unfold reduceRun
  simp only [Stopping.runFrom_bind, Stopping.runFrom_get]
  rcases readRun d f with e | ⟨table, summaries⟩
  · rfl
  · simp only [Stopping.runFrom_bind, Stopping.runFrom_ofExcept]
    rcases aggregate summaries with o | e | x
    · rfl
    · rfl
    · simp only
      rcases writeText d f.cdf table.text with e | d₁
      · rfl
      · simp only [Stopping.runFrom_bind, Stopping.runFrom_set]
        rcases writeText d₁ f.throughput (Binary64.fixedText 2 x ++ "\n") with e | d₂
        · rfl
        · rfl

section Runs

variable {h : Host.System} {O : List String → Prop} {f : RunFiles}

/-- Reducing a run changes no host. -/
theorem reduceRun_host (f : RunFiles) (d : Disk) : ((reduceRun f).runFrom d).2.host = d.host := by
  rw [reduceRun_runFrom]
  split
  · rfl
  · split
    · rfl
    · rfl
    · split
      · rfl
      · next d₁ h₁ =>
        split
        · exact writeText_host h₁
        · next d₂ h₂ => exact (writeText_host h₂).trans (writeText_host h₁)

theorem reduceRun_replays (hf : RunWithin h O f) : Replays h O (reduceRun f) := by
  intro d d' hd ha
  subst hd
  rw [reduceRun_runFrom, reduceRun_runFrom, readRun_eq ha hf.reads]
  rcases readRun d' f with e | ⟨table, summaries⟩
  · exact .same _ ha
  · dsimp only
    rcases aggregate summaries with o | e | x
    · exact .same _ ha
    · exact .same _ ha
    · -- the percentile table, then the throughput, each written alike
      dsimp only
      rcases writeText_alike ha hf.cdf table.text with
        ⟨e, he, he'⟩ | ⟨d₁, d₁', h₁, h₁', halike₁, htracks₁⟩
      · rw [he, he']
        exact .same _ ha
      · rw [h₁, h₁']
        dsimp only
        have hhost₁ := writeText_host h₁
        rcases writeText_alike halike₁ (hhost₁ ▸ hf.throughput) (Binary64.fixedText 2 x ++ "\n") with
          ⟨e, he, he'⟩ | ⟨d₂, d₂', h₂, h₂', halike₂, htracks₂⟩
        · rw [he, he']
          exact .written _ halike₁ htracks₁ hhost₁
        · rw [h₂, h₂']
          exact .written _ halike₂ (htracks₁.trans htracks₂) ((writeText_host h₂).trans hhost₁)

theorem reduceRun_keeps (hf : RunWithin h O f) : Keeps h O (reduceRun f) := by
  intro d hd
  subst hd
  rw [reduceRun_runFrom]
  rcases readRun d f with e | ⟨table, summaries⟩
  · exact Alike.refl O d
  · dsimp only
    rcases aggregate summaries with o | e | x
    · exact Alike.refl O d
    · exact Alike.refl O d
    · dsimp only
      cases h₁ : writeText d f.cdf table.text with
      | error e => exact Alike.refl O d
      | ok d₁ =>
        have hk₁ := writeText_keeps hf.cdf h₁
        dsimp only
        cases h₂ : writeText d₁ f.throughput (Binary64.fixedText 2 x ++ "\n") with
        | error e => exact hk₁
        | ok d₂ => exact hk₁.trans (writeText_keeps (hk₁.host ▸ hf.throughput) h₂)

theorem recordRun_replays (hf : RunWithin h O f) (acc : Table × Report) :
    Replays h O (recordRun acc f) := by
  obtain ⟨table, report⟩ := acc
  unfold recordRun
  exact (reduceRun_replays hf).bind fun r => by cases r <;> exact Replays.pure _

theorem recordRun_keeps (hf : RunWithin h O f) (acc : Table × Report) :
    Keeps h O (recordRun acc f) := by
  obtain ⟨table, report⟩ := acc
  unfold recordRun
  exact (reduceRun_keeps hf).bind fun r => by cases r <;> exact Keeps.pure _

end Runs

section Tests

variable {h : Host.System} {O : List String → Prop} {clients : List ℕ} {dir test : String}

theorem finishTest_runFrom_eq (table : Table) (report : Report) (d : Disk) :
    (finishTest dir test table report).runFrom d =
      if table.isEmpty then (.ok report, d)
      else match writeText d (throughputVsClients dir test) table.text with
        | .error e => (.ok { report with failures := report.failures ++ [⟨dir, test, none, e⟩] }, d)
        | .ok d₁ => (.ok { report with tables := report.tables ++ [⟨dir, test, table⟩] }, d₁) := by
  unfold finishTest
  split_ifs
  · rfl
  · simp only [Stopping.runFrom_bind, Stopping.runFrom_get]
    cases writeText d (throughputVsClients dir test) table.text <;> rfl

theorem finishTest_replays (hw : WritesOutside h O (throughputVsClients dir test)) (table : Table)
    (report : Report) : Replays h O (finishTest dir test table report) := by
  intro d d' hd ha
  subst hd
  rw [finishTest_runFrom_eq, finishTest_runFrom_eq]
  split_ifs
  · exact .same _ ha
  · rcases writeText_alike ha hw table.text with
      ⟨e, he, he'⟩ | ⟨d₁, d₁', h₁, h₁', halike₁, htracks₁⟩
    · rw [he, he']
      exact .same _ ha
    · rw [h₁, h₁']
      exact .written _ halike₁ htracks₁ (writeText_host h₁)

theorem finishTest_keeps (hw : WritesOutside h O (throughputVsClients dir test)) (table : Table)
    (report : Report) : Keeps h O (finishTest dir test table report) := by
  intro d hd
  subst hd
  rw [finishTest_runFrom_eq]
  split_ifs
  · exact Alike.refl O d
  · cases h₁ : writeText d (throughputVsClients dir test) table.text with
    | error e => exact Alike.refl O d
    | ok d₁ => exact writeText_keeps hw h₁

theorem reduceTest_replays (hruns : ∀ c ∈ clients, RunWithin h O ⟨dir, test, c⟩)
    (hw : WritesOutside h O (throughputVsClients dir test)) (report : Report) :
    Replays h O (reduceTest clients dir test report) := by
  unfold reduceTest
  refine (Replays.foldlM (fun f hf acc => ?_) _).bind fun acc => ?_
  · obtain ⟨c, hc, rfl⟩ := List.mem_map.1 hf
    exact recordRun_replays (hruns c hc) acc
  · obtain ⟨table, report⟩ := acc
    exact finishTest_replays hw table report

theorem reduceTest_keeps (hruns : ∀ c ∈ clients, RunWithin h O ⟨dir, test, c⟩)
    (hw : WritesOutside h O (throughputVsClients dir test)) (report : Report) :
    Keeps h O (reduceTest clients dir test report) := by
  unfold reduceTest
  refine (Keeps.foldlM (fun f hf acc => ?_) _).bind fun acc => ?_
  · obtain ⟨c, hc, rfl⟩ := List.mem_map.1 hf
    exact recordRun_keeps (hruns c hc) acc
  · obtain ⟨table, report⟩ := acc
    exact finishTest_keeps hw table report

end Tests

/-! ## Reducing a sweep twice -/

/-- Every file of a run in a shape's directory, named with a tag without `/`, is an entry of that
directory. -/
theorem file_entryPath {root : String} {σ : Shape} {r : RunFiles} {who s : String}
    {sfx : List String} (hdir : r.dir = joinPath root σ.dirName) (htest : '/' ∉ r.test.toList)
    (hwho : '/' ∉ who.toList) (hs : s ∈ sfx) (hsfx : sfx ⊆ readSuffixes ++ writeSuffixes) :
    EntryPath root sfx (r.file who s) := by
  refine ⟨σ, r.test ++ "_client" ++ toString r.clients ++ "-" ++ who ++ "_", s, hs, ?_, ?_⟩
  · have hlit : '/' ∉ "_client".toList ∧ '/' ∉ "-".toList ∧ '/' ∉ "_".toList := by decide
    simp only [String.toList_append, List.mem_append, not_or]
    exact ⟨⟨⟨⟨⟨⟨htest, hlit.1⟩, slash_not_mem_toString _⟩, hlit.2.1⟩, hwho⟩, hlit.2.2⟩,
      (suffixes_long s (hsfx hs)).2⟩
  · rw [RunFiles.file, hdir]

/-- What reducing the runs of a test in a shape's directory below `root` needs of the places a
reduction observes, when the test's name has no `/`. -/
theorem testDir_within {h : Host.System} {root : String} (hn : NamesKept h root) {σ : Shape}
    {test : String} (htest : '/' ∉ test.toList) (c : ℕ) :
    RunWithin h (Observed h root) ⟨joinPath root σ.dirName, test, c⟩ := by
  have hall : '/' ∉ "all".toList := by decide
  have hread : readSuffixes ⊆ readSuffixes ++ writeSuffixes := List.subset_append_left _ _
  have hwrite : writeSuffixes ⊆ readSuffixes ++ writeSuffixes := List.subset_append_right _ _
  let r : RunFiles := ⟨joinPath root σ.dirName, test, c⟩
  refine ⟨fun path hpath => ?_, ?_, ?_⟩
  · simp only [List.mem_append, RunFiles.allLatencies, RunFiles.allSummaries, List.mem_map] at hpath
    rcases hpath with ⟨i, -, rfl⟩ | ⟨i, -, rfl⟩
    · have he : EntryPath root readSuffixes (r.latencies i) :=
        file_entryPath rfl htest (slash_not_mem_toString i) (.head _) hread
      exact he.readsIn h
    · have he : EntryPath root readSuffixes (r.summary i) :=
        file_entryPath rfl htest (slash_not_mem_toString i) (.tail _ (.head _)) hread
      exact he.readsIn h
  · have he : EntryPath root writeSuffixes r.cdf := file_entryPath rfl htest hall (.head _) hwrite
    exact he.writesOutside hn
  · have he : EntryPath root writeSuffixes r.throughput :=
      file_entryPath rfl htest hall (.tail _ (.head _)) hwrite
    exact he.writesOutside hn

theorem throughputVsClients_writesOutside {h : Host.System} {root : String}
    (hn : NamesKept h root) {σ : Shape} {test : String} (htest : '/' ∉ test.toList) :
    WritesOutside h (Observed h root) (throughputVsClients (joinPath root σ.dirName) test) := by
  have hmem : "_throughput_v_clients.dat" ∈ writeSuffixes := .tail _ (.tail _ (.head _))
  refine EntryPath.writesOutside hn ⟨σ, test, _, hmem, ?_, rfl⟩
  rw [String.toList_append, List.mem_append, not_or]
  exact ⟨htest, (suffixes_long _ (List.mem_append_right _ hmem)).2⟩

/-- The tests a reduction visits: every test of every shape that passes the rules, in the shape's
directory. -/
theorem mem_testDirs_iff {S : Space} {root : String} {g : String × String} :
    g ∈ testDirs S root ↔
      ∃ σ ∈ S.shapes, σ.validate = none ∧ ∃ t ∈ S.tests, g = (joinPath root σ.dirName, t) := by
  simp only [testDirs, List.mem_flatMap, List.mem_filter, List.mem_map, Option.isNone_iff_eq_none]
  constructor
  · rintro ⟨σ, ⟨hσ, hv⟩, t, ht, rfl⟩
    exact ⟨σ, hσ, hv, t, ht, rfl⟩
  · rintro ⟨σ, hσ, hv, t, ht, rfl⟩
    exact ⟨σ, ⟨hσ, hv⟩, t, ht, rfl⟩

theorem mem_testDirs {S : Space} {root : String} {g : String × String}
    (hg : g ∈ testDirs S root) : ∃ σ : Shape, g.1 = joinPath root σ.dirName ∧ g.2 ∈ S.tests := by
  obtain ⟨σ, -, -, t, ht, rfl⟩ := mem_testDirs_iff.1 hg
  exact ⟨σ, rfl, ht⟩

section Sweep

variable {h : Host.System} {S : Space} {root : String}

/-- Reductions from disks alike at the places they observe run alike. -/
theorem reduce_replays (hn : NamesKept h root) (htests : ∀ t ∈ S.tests, '/' ∉ t.toList) :
    Replays h (Observed h root) (reduce S root) := by
  rw [reduce_eq_foldlM_testDirs]
  refine Replays.foldlM (fun g hg report => ?_) ({} : Report)
  obtain ⟨σ, hdir, htest⟩ := mem_testDirs hg
  rw [hdir]
  exact reduceTest_replays (fun c _ => testDir_within hn (htests _ htest) c)
    (throughputVsClients_writesOutside hn (htests _ htest)) report

/-- A reduction leaves every disk alike at the places it observes. -/
theorem reduce_keeps (hn : NamesKept h root) (htests : ∀ t ∈ S.tests, '/' ∉ t.toList) :
    Keeps h (Observed h root) (reduce S root) := by
  rw [reduce_eq_foldlM_testDirs]
  refine Keeps.foldlM (fun g hg report => ?_) ({} : Report)
  obtain ⟨σ, hdir, htest⟩ := mem_testDirs hg
  rw [hdir]
  exact reduceTest_keeps (fun c _ => testDir_within hn (htests _ htest) c)
    (throughputVsClients_writesOutside hn (htests _ htest)) report

end Sweep

/-- On a disk whose host's links keep their names, reducing again on the disk that a reduction
left gives the same report, tables and failures alike, and leaves every place of the disk as
the first reduction left it. -/
theorem reduce_idempotent (S : Space) (root : String) (d : Disk) (hk : d.host.KeepsNames)
    (htests : ∀ t ∈ S.tests, '/' ∉ t.toList) :
    let first := (reduce S root).runFrom d
    let second := (reduce S root).runFrom first.2
    second.1 = first.1 ∧ ∀ p, second.2.find? p = first.2.find? p := by
  intro first second
  -- the first reduction leaves a disk alike to the one it started from, so the second runs
  -- alike to the first, and changes a place only to what the first left there
  have hn := namesKept_of_keepsNames hk root
  have hkeep : Alike (Observed d.host root) d first.2 := reduce_keeps hn htests d rfl
  obtain ⟨hres, -, htracks, -⟩ := reduce_replays hn htests d first.2 rfl hkeep
  refine ⟨hres.symm, fun p => ?_⟩
  rcases htracks p with heq | ⟨-, hsame⟩
  · exact heq.symm
  · exact hsame

theorem reduce_idempotent_on_empty_disk :
    (({} : Disk).host.KeepsNames ∧ ∀ t ∈ ["get", "set"], '/' ∉ t.toList) ∧
      let first := (reduce { tests := ["get", "set"], clients := [1, 2] } "results").runFrom {}
      let second := (reduce { tests := ["get", "set"], clients := [1, 2] } "results").runFrom first.2
      second.1 = first.1 ∧ ∀ p, second.2.find? p = first.2.find? p :=
  ⟨⟨Host.standard_keepsNames, by decide⟩,
    reduce_idempotent _ _ _ Host.standard_keepsNames (by decide)⟩

/-! ## A link of another name -/

/-- The directory of the one valid shape of the default space, below `results`. -/
def linkedShapeDir : List String := ["results", "servers4_replicas3_span1_value3_keys1"]

/-- A host on which the one client of a run of `get` has left its samples and its summary, and
the run's throughput file is a link to that summary. -/
def summaryLinkHost : Host.System where
  entry? p :=
    if p = linkedShapeDir ++ ["get_client1-all_throughput.dat"] then
      some (.link (linkedShapeDir ++ ["get_client1-1_execSummary.dat"]))
    else if p = linkedShapeDir ++ ["get_client1-1_reqLatencies.dat"] then
      some (.file "1\n".toUTF8)
    else if p = linkedShapeDir ++ ["get_client1-1_execSummary.dat"] then
      some (.file "totalTime 1\ntotalOps 1\n".toUTF8)
    else if p = ["results"] ∨ p = linkedShapeDir then some .dir
    else none
  searchPath := []
  target_not_link p t hp t' := by
    split_ifs at hp
    · cases hp
      simp [linkedShapeDir]
    all_goals cases hp

/-- Without links that keep their names a reduction need not be idempotent: the first reduction
writes the run's throughput through the link over the summary it read and reports the test's
table, and the second cannot read that summary, records the run as failed and reports no table. -/
theorem reduce_twice_through_link :
    ¬ summaryLinkHost.KeepsNames ∧
      let first := (reduce { tests := ["get"], clients := [1] } "results").runFrom
        { host := summaryLinkHost }
      let second := (reduce { tests := ["get"], clients := [1] } "results").runFrom first.2
      (first.1.toOption.map fun r => (r.tables.length, r.failures.length)) = some (1, 0) ∧
        (second.1.toOption.map fun r => (r.tables.length, r.failures.length)) = some (0, 1) := by
  refine ⟨fun hk => ?_, by decide +kernel⟩
  -- the link ends in another name than its target
  have hlast := hk _ _ (if_pos rfl)
  simp [linkedShapeDir] at hlast

end Reduction

end ClusterSweep
