import Mathlib
import ClusterSweep.Simulation
import ClusterSweep.Proofs.SweepRun
import ClusterSweep.Proofs.DiskCreation
import ClusterSweep.Proofs.ReduceIdempotent

/-!
# A sweep recorded on a fresh disk

`Runner.recording F true` stands in for a cluster that fails the runs of the client counts in
`F` and otherwise has every client write its latencies and its summary.  Run on a host below a
fresh output root (`Disk.FreshRoot`: no `..` and no link on the way, nothing below it), relative
or absolute, a sweep whose clients' paths the system accepts (`RunFiles.ClientsFit`) reports
every point as the recording runner answers it (`Sweep.recordedOutcome`), and leaves a disk
that `Sweep.Recorded` describes:

* the directory of every valid point is there, with every directory on the way to it;
* every client of a valid point whose run completed has its two files there, with the bytes it
  wrote (`Sweep.Writes`);
* nothing else lies in the shapes' directories, and no file stands where a directory should.

A client file's name gives back its client count, its client and its kind
(`RunFiles.entry_inj`), and the bytes a client writes depend on nothing else, so a file written
twice by two points holds the same bytes both times (`Sweep.Writes.data_eq`).
-/

namespace ClusterSweep

open Disk

/-! ## Names of the clients' files -/

namespace RunFiles

/-- The name of the file `TEST_clientN-WHO_SUFFIX` of a run, in the run's directory. -/
def entry (r : RunFiles) (who suffix : String) : String :=
  r.test ++ "_client" ++ toString r.clients ++ "-" ++ who ++ "_" ++ suffix

theorem file_eq (r : RunFiles) (who suffix : String) :
    r.file who suffix = joinPath r.dir (r.entry who suffix) := rfl

/-- Before a run of characters satisfying `q`, a character failing it ends the run. -/
theorem run_append_cons_inj {q : Char → Bool} {x : Char} (hx : q x = false) :
    ∀ {u v a b : List Char}, (∀ c ∈ u, q c) → (∀ c ∈ v, q c) →
      u ++ x :: a = v ++ x :: b → u = v ∧ a = b
  | [], [], _, _, _, _, h => ⟨rfl, by simpa using h⟩
  | [], c :: v, _, _, _, hv, h => by
    simp only [List.nil_append, List.cons_append, List.cons.injEq] at h
    obtain ⟨rfl, -⟩ := h
    simp [hv x (.head _)] at hx
  | c :: u, [], _, _, hu, _, h => by
    simp only [List.nil_append, List.cons_append, List.cons.injEq] at h
    obtain ⟨rfl, -⟩ := h
    simp [hu c (.head _)] at hx
  | c :: u, c' :: v, _, _, hu, hv, h => by
    simp only [List.cons_append, List.cons.injEq] at h
    obtain ⟨rfl, h⟩ := h
    obtain ⟨rfl, rfl⟩ := run_append_cons_inj hx (fun y hy => hu y (.tail _ hy))
      (fun y hy => hv y (.tail _ hy)) h
    exact ⟨rfl, rfl⟩

/-- After a character failing `q`, a run of characters satisfying it is read back from the
end. -/
theorem append_cons_run_inj {q : Char → Bool} {x : Char} (hx : q x = false)
    {a b u v : List Char} (hu : ∀ c ∈ u, q c) (hv : ∀ c ∈ v, q c)
    (h : a ++ x :: u = b ++ x :: v) : a = b ∧ u = v := by
  have hr : u.reverse ++ x :: a.reverse = v.reverse ++ x :: b.reverse := by
    simpa using congrArg List.reverse h
  obtain ⟨h₁, h₂⟩ := run_append_cons_inj hx (by simpa using hu) (by simpa using hv) hr
  exact ⟨List.reverse_injective h₂, List.reverse_injective h₁⟩

/-- The two kinds of client file end alike in neither direction. -/
theorem readSuffixes_apart : ∀ s ∈ readSuffixes, ∀ s' ∈ readSuffixes, s ≠ s' →
    ¬ s.toList <:+ s'.toList := by
  decide +kernel

/-- A result file's name spelled out: the test, `_clien`, then `t`, the client count, `-`, who
wrote it, `_` and the ending. -/
theorem toList_entry (r : RunFiles) (who s : String) :
    (r.entry who s).toList =
      (((r.test.toList ++ "_clien".toList) ++ 't' :: (toString r.clients).toList) ++
        '-' :: who.toList) ++ '_' :: s.toList := by
  simp [entry]

/-- A client file's name gives back its client count, its client and its kind. -/
theorem entry_inj {r r' : RunFiles} {i i' : ℕ} {s s' : String} (hs : s ∈ readSuffixes)
    (hs' : s' ∈ readSuffixes) (h : r.entry (toString i) s = r'.entry (toString i') s') :
    r.clients = r'.clients ∧ i = i' ∧ s = s' := by
  -- the kind first: neither ending is one of the other
  obtain rfl : s = s' := by
    by_contra hne
    exact append_ne_append (readSuffixes_apart s hs s' hs' hne)
      (readSuffixes_apart s' hs' s hs (Ne.symm hne)) h
  -- then the client and the client count, each a run of digits read back from the end
  have hl := congrArg String.toList h
  rw [toList_entry, toList_entry] at hl
  have hdigits : ∀ n : ℕ, ∀ c ∈ (toString n).toList, c.isDigit = true :=
    fun n c hc => isDigit_of_mem_toString hc
  obtain ⟨hcount, hclient⟩ := append_cons_run_inj (by decide) (hdigits _) (hdigits _)
    (List.append_cancel_right hl)
  obtain ⟨-, hcount⟩ := append_cons_run_inj (by decide) (hdigits _) (hdigits _) hcount
  rw [String.toList_inj, Nat.toString_eq_repr, Nat.toString_eq_repr, Nat.repr_inj]
    at hcount hclient
  exact ⟨hcount, hclient, rfl⟩

theorem slash_not_mem_entry {r : RunFiles} {who s : String} (htest : '/' ∉ r.test.toList)
    (hwho : '/' ∉ who.toList) (hs : s ∈ readSuffixes ++ writeSuffixes) :
    '/' ∉ (r.entry who s).toList := by
  have hlit : '/' ∉ "_client".toList ∧ '/' ∉ "-".toList ∧ '/' ∉ "_".toList := by decide
  simp only [entry, String.toList_append, List.mem_append, not_or]
  exact ⟨⟨⟨⟨⟨⟨htest, hlit.1⟩, slash_not_mem_toString _⟩, hlit.2.1⟩, hwho⟩, hlit.2.2⟩,
    (suffixes_long s hs).2⟩

end RunFiles

/-! ## Entries of a shape's directory -/

namespace Disk

/-- An output root that is fresh on the host `h`: its path never goes to a parent, the host
holds a directory or nothing on the way to it and at the root itself, and nothing below it, at
no place that the root's path followed by a name spells.  The root may be relative or
absolute. -/
structure FreshRoot (h : Host.System) (root : String) : Prop where
  no_parent : ".." ∉ components root
  way : ∀ a, Stem a (components root) → h.entry? a = none ∨ h.entry? a = some .dir
  below : ∀ c rest, c ≠ "/" → h.entry? (components root ++ c :: rest) = none

/-- The standard host holds nothing below the working directory, so a relative output root that
never goes to a parent is fresh on it. -/
theorem freshRoot_standard {root : String} (hrel : ∀ c ∈ components root, c ≠ "/" ∧ c ≠ "..") :
    FreshRoot Host.standard root := by
  have hnone : ∀ c rest, c ≠ "/" → Host.standard.entry? (c :: rest) = none :=
    fun c rest hc => Host.standardPlace?_cons hc rest
  refine ⟨fun hp => (hrel _ hp).2 rfl, fun a ha => .inl ?_, fun c rest hc => ?_⟩
  · obtain ⟨c, a', rfl⟩ := List.exists_cons_of_ne_nil ha.1
    exact hnone c a' (hrel c (ha.2.subset (.head _))).1
  · -- the place starts with the root's first name, or with `c` below the working directory
    cases hR : components root with
    | nil => exact hnone c rest hc
    | cons c' R => exact hnone c' _ (hrel c' (by rw [hR]; exact .head _)).1

/-- A name that can be an entry of a directory, and that a path ending in it does not take for
a directory: no `/`, longer than `..`, and not ending in `/` or `.`. -/
structure EntryName (name : String) : Prop where
  no_slash : '/' ∉ name.toList
  long : 2 < name.length
  last : name.toList.getLast?.all (fun ch => ch != '/' && ch != '.') = true

/-- Every ending of a result file's name ends in a letter. -/
theorem suffixes_last : ∀ s ∈ readSuffixes ++ writeSuffixes, s.toList ≠ [] ∧
    s.toList.getLast?.all (fun ch => ch != '/' && ch != '.') = true := by
  decide

theorem entryName_append {x s : String} (hs : s ∈ readSuffixes ++ writeSuffixes)
    (hslash : '/' ∉ (x ++ s).toList) : EntryName (x ++ s) := by
  obtain ⟨hne, hlast⟩ := suffixes_last s hs
  exact ⟨hslash, Reduction.two_lt_length_of_mem hs, by rwa [getLast?_toList_append hne]⟩

theorem RunFiles.entryName_entry {r : RunFiles} {who s : String} (htest : '/' ∉ r.test.toList)
    (hwho : '/' ∉ who.toList) (hs : s ∈ readSuffixes ++ writeSuffixes) :
    EntryName (r.entry who s) :=
  entryName_append hs (RunFiles.slash_not_mem_entry htest hwho hs)

/-- The files a reduction writes for a run are named for all of its clients. -/
theorem RunFiles.entryName_all {r : RunFiles} {s : String} (htest : '/' ∉ r.test.toList)
    (hs : s ∈ readSuffixes ++ writeSuffixes) : EntryName (r.entry "all" s) :=
  RunFiles.entryName_entry htest (by decide) hs

theorem entryName_table {test : String} (htest : '/' ∉ test.toList) :
    EntryName (test ++ "_throughput_v_clients.dat") := by
  have hs : "_throughput_v_clients.dat" ∈ readSuffixes ++ writeSuffixes := by decide
  refine entryName_append hs ?_
  rw [String.toList_append, List.mem_append, not_or]
  exact ⟨htest, (suffixes_long _ hs).2⟩

section ShapeEntry

variable {root name : String} {σ : Shape}

/-- The place of the directory of a shape below a root that leads down. -/
theorem components_shapeDir (σ : Shape) :
    components (joinPath root σ.dirName) = components root ++ [σ.dirName] := by
  obtain ⟨hds, hdl, -⟩ := σ.dirName_plain
  obtain ⟨hd₁, hd₂, -, -⟩ := Reduction.ne_of_two_lt_length hdl
  exact components_joinPath hds hd₁ hd₂

/-- The place of an entry of a shape's directory. -/
theorem components_shapeEntry (σ : Shape) (hname : EntryName name) :
    components (joinPath (joinPath root σ.dirName) name) = components root ++ [σ.dirName, name] := by
  obtain ⟨hn₁, hn₂, -, -⟩ := Reduction.ne_of_two_lt_length hname.long
  rw [components_joinPath hname.no_slash hn₁ hn₂, components_shapeDir]
  simp

/-- An entry of a shape's directory fits when the directory does, its name is at most `nameMax`
bytes without the zero character, and the whole path stays below `pathMax` bytes. -/
theorem fits_shapeEntry (hname : EntryName name) (hdir : Fits (joinPath root σ.dirName))
    (hzero : holdsZero name = false) (hsize : name.utf8ByteSize ≤ nameMax)
    (hpath : (joinPath root σ.dirName).utf8ByteSize + 1 + name.utf8ByteSize < pathMax) :
    Fits (joinPath (joinPath root σ.dirName) name) := by
  obtain ⟨hn₁, hn₂, -, -⟩ := Reduction.ne_of_two_lt_length hname.long
  refine ⟨checkPath_joinPath hdir.1 hzero hpath, fun c hc => ?_⟩
  rw [components_joinPath hname.no_slash hn₁ hn₂, List.mem_append, List.mem_singleton] at hc
  rcases hc with hc | rfl
  · exact hdir.2 c hc
  · exact hsize

/-- A stem of a place below `R` is a stem of `R`, or `R` followed by a stem of the rest. -/
theorem stem_append_cases {R rest a : List String} (ha : Stem a (R ++ rest)) :
    Stem a R ∨ ∃ b, Stem b rest ∧ a = R ++ b := by
  rcases List.prefix_or_prefix_of_prefix ha.2 (List.prefix_append R rest) with hpre | ⟨b, rfl⟩
  · exact .inl ⟨ha.1, hpre⟩
  · by_cases hb : b = []
    · subst hb
      exact .inl ⟨ha.1, by simp⟩
    · exact .inr ⟨b, ⟨hb, (List.prefix_append_right_inj R).1 ha.2⟩, rfl⟩

section Fresh

variable {h : Host.System} (hroot : FreshRoot h root)
include hroot

/-- Below a fresh root, names that are neither the root nor `..` lead to the place they
spell. -/
theorem FreshRoot.direct {rest : List String} (hrest : ∀ c ∈ rest, c ≠ "/" ∧ c ≠ "..") :
    Direct h (components root ++ rest) := by
  refine ⟨fun hp => ?_, fun a ha => ?_⟩
  · rcases List.mem_append.1 hp with hp | hp
    · exact hroot.no_parent hp
    · exact (hrest _ hp).2 rfl
  · rcases stem_append_cases ha with ha | ⟨b, hb, rfl⟩
    · exact unlinked_of_entry (hroot.way a ha)
    · -- below the root, a place starts with a name of `rest`
      obtain ⟨c, b', rfl⟩ := List.exists_cons_of_ne_nil hb.1
      exact unlinked_of_entry (.inl (hroot.below c b' (hrest c (hb.2.subset (.head _))).1))

theorem FreshRoot.direct_shapeDir : Direct h (components (joinPath root σ.dirName)) := by
  obtain ⟨-, -, hd₃, hd₄⟩ := Reduction.ne_of_two_lt_length σ.dirName_plain.2.1
  rw [components_shapeDir]
  exact hroot.direct fun c hc => by
    rw [List.mem_singleton.1 hc]
    exact ⟨hd₄, hd₃⟩

theorem FreshRoot.direct_shapeEntry (hname : EntryName name) :
    Direct h (components (joinPath (joinPath root σ.dirName) name)) := by
  obtain ⟨-, -, hd₃, hd₄⟩ := Reduction.ne_of_two_lt_length σ.dirName_plain.2.1
  obtain ⟨-, -, hn₃, hn₄⟩ := Reduction.ne_of_two_lt_length hname.long
  rw [components_shapeEntry σ hname]
  exact hroot.direct fun c hc => by
    rcases List.mem_pair.1 hc with rfl | rfl
    · exact ⟨hd₄, hd₃⟩
    · exact ⟨hn₄, hn₃⟩

/-- Below a fresh root no link stands, so the host keeps every name there. -/
theorem FreshRoot.namesKept : Reduction.NamesKept h root := by
  intro σ name
  obtain ⟨-, -, -, hd₄⟩ := Reduction.ne_of_two_lt_length σ.dirName_plain.2.1
  have hd : Direct h (components root) := by
    simpa using hroot.direct (List.forall_mem_nil fun c => c ≠ "/" ∧ c ≠ "..")
  have hR : Reduction.rootPlace h root = components root := reach_direct hd
  have hdir : child h (components root) σ.dirName = components root ++ [σ.dirName] :=
    child_of_unlinked (unlinked_of_entry (.inl (hroot.below σ.dirName [] hd₄)))
  have hentry : child h (components root ++ [σ.dirName]) name =
      components root ++ [σ.dirName] ++ [name] :=
    child_of_unlinked (unlinked_of_entry
      (.inl (by simpa using hroot.below σ.dirName [name] hd₄)))
  rw [hR, hdir, hentry]
  simp

end Fresh

theorem namesDirectory_shapeEntry (hname : EntryName name) :
    namesDirectory (joinPath (joinPath root σ.dirName) name) = false := by
  obtain ⟨pre, hpre⟩ := Reduction.joinPath_eq_append (joinPath root σ.dirName) name
  apply Reduction.namesDirectory_eq_false
  have hne : name.toList ≠ [] := by
    intro h
    have := hname.long
    rw [String.length, h] at this
    simp at this
  rw [hpre, getLast?_toList_append hne]
  exact hname.last

/-- A file in a shape's directory below a fresh root, when the directory and every directory on
the way to it are there, is read from its own place. -/
theorem readFile_shapeEntry {d : Disk} (hroot : FreshRoot d.host root) (hname : EntryName name)
    (hfit : Fits (joinPath (joinPath root σ.dirName) name))
    (hdirs : ∀ a, Stem a (components root ++ [σ.dirName]) → d.find? a = some .dir) :
    d.readFile (joinPath (joinPath root σ.dirName) name) =
      readNode (d.find? (components root ++ [σ.dirName, name])) := by
  have hcs : components (joinPath (joinPath root σ.dirName) name) =
      components root ++ [σ.dirName, name] := components_shapeEntry σ hname
  rw [readFile_direct hfit (hroot.direct_shapeEntry hname) (by simp [hcs])
    (namesDirectory_shapeEntry hname) (by simpa [hcs] using hdirs), hcs]

/-- A file created in a shape's directory below a fresh root, when the directory and every
directory on the way to it are there and no directory stands at its place, goes to its own
place. -/
theorem fileSlot_shapeEntry {d : Disk} (hroot : FreshRoot d.host root) (hname : EntryName name)
    (hfit : Fits (joinPath (joinPath root σ.dirName) name))
    (hdirs : ∀ a, Stem a (components root ++ [σ.dirName]) → d.find? a = some .dir)
    (hnot : d.find? (components root ++ [σ.dirName, name]) ≠ some .dir) :
    d.fileSlot (joinPath (joinPath root σ.dirName) name) =
      .ok (components root ++ [σ.dirName, name]) := by
  have hcs : components (joinPath (joinPath root σ.dirName) name) =
      components root ++ [σ.dirName, name] := components_shapeEntry σ hname
  rw [fileSlot_direct hfit (hroot.direct_shapeEntry hname) (by simp [hcs])
    (namesDirectory_shapeEntry hname) (by simpa [hcs] using hdirs) (by rwa [hcs]), hcs]

/-- A file in a shape's directory below a fresh root, when the directory and every directory on
the way to it are there, has no place if its name is longer than `nameMax` bytes. -/
theorem fileSlot_shapeEntry_long {d : Disk} (hroot : FreshRoot d.host root)
    (hname : EntryName name) (hcheck : checkPath (joinPath (joinPath root σ.dirName) name) = .ok ())
    (hdir : Fits (joinPath root σ.dirName))
    (hdirs : ∀ a, Stem a (components root ++ [σ.dirName]) → d.find? a = some .dir)
    (hlong : nameMax < name.utf8ByteSize) :
    d.fileSlot (joinPath (joinPath root σ.dirName) name) = .error .nameTooLong := by
  have hcs : components (joinPath (joinPath root σ.dirName) name) =
      (components root ++ [σ.dirName]) ++ [name] := by
    rw [components_shapeEntry σ hname, List.append_assoc, List.singleton_append]
  have hd := hroot.direct_shapeDir (σ := σ)
  have hsize := hdir.2
  rw [components_shapeDir] at hd hsize
  exact fileSlot_long hcheck hcs hd hsize hdirs hlong

/-- A place of a shape's directory is no place of an entry of one. -/
theorem not_stem_entry {R a : List String} {x y z : String} (ha : Stem a (R ++ [x])) :
    a ≠ R ++ [y, z] := by
  rintro rfl
  have := ha.length_le
  simp at this

theorem entry_place_inj {R : List String} {x y x' y' : String}
    (h : R ++ [x, y] = R ++ [x', y']) : x = x' ∧ y = y' := by
  simpa using h

/-- A disk on which the program created nothing holds what its host holds. -/
theorem find?_host (h : Host.System) (p : List String) :
    ({ host := h } : Disk).find? p =
      if p == ["/"] || p.all (· == "..") then some .dir else (h.entry? p).bind Node.ofHost? :=
  rfl

theorem find?_host_of_entry {h : Host.System} {p : List String}
    (hp : h.entry? p = none ∨ h.entry? p = some .dir) :
    ({ host := h } : Disk).find? p = none ∨ ({ host := h } : Disk).find? p = some .dir := by
  rw [find?_host]
  split
  · exact .inr rfl
  · rcases hp with hp | hp <;> simp [hp, Node.ofHost?]

/-- On a disk on which the program created nothing, nothing lies in the directory of a shape
below a fresh root. -/
theorem find?_host_entry {h : Host.System} (hroot : FreshRoot h root) (σ : Shape) (name : String) :
    ({ host := h } : Disk).find? (components root ++ [σ.dirName, name]) = none := by
  obtain ⟨-, -, hd₃, hd₄⟩ := Reduction.ne_of_two_lt_length σ.dirName_plain.2.1
  have hfixed : (components root ++ [σ.dirName, name] == ["/"] ||
      (components root ++ [σ.dirName, name]).all (· == "..")) = false := by
    have hlen : (components root ++ [σ.dirName, name]).length ≠ 1 := by simp
    simp only [Bool.or_eq_false_iff, beq_eq_false_iff_ne, List.all_eq_false]
    exact ⟨fun heq => hlen (by rw [heq]; rfl), ⟨σ.dirName, by simp, by simpa using hd₃⟩⟩
  rw [find?_host, hfixed, if_neg Bool.false_ne_true, hroot.below σ.dirName [name] hd₄]
  rfl

end ShapeEntry

end Disk

/-! ## What the simulated clients write -/

namespace OpsTarget

/-- The requests each client of a run with `c` clients issues: its share of a total, the
remainder dropped, or the count every client is given. -/
def requests : OpsTarget → ℕ → ℕ
  | .total t, c => t / c
  | .perClient p, _ => p

theorem perClientRequests_eq {ops : OpsTarget} {c : ℕ} {q : Quota} (h : ops.quota c = .ok q) :
    q.perClientRequests = ops.requests c := by
  cases ops with
  | total t =>
    simp only [quota, Except.ok.injEq] at h
    rw [← h]
    rfl
  | perClient p =>
    simp only [quota, bind, Except.bind] at h
    split at h
    · exact absurd h (by simp)
    · simp only [pure, Except.pure, Except.ok.injEq] at h
      rw [← h]
      rfl

end OpsTarget

namespace RunFiles

/-- The paths that a run's clients write fit: its directory and its clients' files. -/
structure ClientsFit (r : RunFiles) : Prop where
  dir : Fits r.dir
  latencies : ∀ i ∈ r.indices, Fits (r.latencies i)
  summaries : ∀ i ∈ r.indices, Fits (r.summary i)

/-- Every path of a run fits: those its clients write, and the files that reducing it writes. -/
structure Fit (r : RunFiles) : Prop extends ClientsFit r where
  cdf : Fits r.cdf
  throughput : Fits r.throughput
  table : Fits (throughputVsClients r.dir r.test)

end RunFiles

namespace Sweep

variable (sw : Sweep)

/-- The run of point `p`: its test and client count, in its shape's directory below the output
root. -/
def runOf (p : Point) : RunFiles :=
  ⟨joinPath sw.options.outputRoot p.shape.dirName, p.test, p.clients⟩

theorem runOf_dir (p : Point) : (sw.runOf p).dir = joinPath sw.options.outputRoot p.shape.dirName := by
  unfold runOf
  rfl

/-- A file of the run of a point is an entry of its shape's directory below the output root. -/
theorem runOf_file (p : Point) (who s : String) :
    (sw.runOf p).file who s =
      joinPath (joinPath sw.options.outputRoot p.shape.dirName) ((sw.runOf p).entry who s) := by
  rw [RunFiles.file_eq, runOf_dir]

/-- What the recording runner that fails the runs of the client counts `F` reports for point
`p`: a point that breaks a rule is skipped with the first rule it breaks, a run of a count of `F`
fails, and any other run completes. -/
def recordedOutcome (F : List ℕ) (p : Point) : Outcome :=
  match p.shape.validate with
  | some v => .skipped v
  | none =>
    if p.clients ∈ F then
      .failed (.other ("simulated failure with " ++ toString p.clients ++ " clients"))
    else .completed

/-- Client `i` of the run of point `p` writes a file `name` with the bytes `data`: its latencies
or its summary, for the requests each of the run's clients issues. -/
def Writes (p : Point) (i : ℕ) (name : String) (data : ByteArray) : Prop :=
  (name = (sw.runOf p).entry (toString i) "reqLatencies.dat" ∧
      data = (Simulation.latencyText i (sw.options.ops.requests p.clients)).toUTF8) ∨
    (name = (sw.runOf p).entry (toString i) "execSummary.dat" ∧
      data = (Simulation.summaryText Binary64.one (sw.options.ops.requests p.clients)).toUTF8)

/-- A disk below a sweep's output root once the directories of the points `Ds` are made and the
clients `W`, each a point and a client, have written their files. -/
structure Recorded (Ds : List Point) (W : List (Point × ℕ)) (d : Disk) : Prop where
  /-- The output root is fresh on the disk's host. -/
  fresh : FreshRoot d.host sw.options.outputRoot
  /-- No entry of a shape's directory is a directory. -/
  entry_not_dir : ∀ (σ : Shape) (name : String),
    d.find? (components sw.options.outputRoot ++ [σ.dirName, name]) ≠ some .dir
  /-- No place on the way to a shape's directory is a file. -/
  way_not_file : ∀ (σ : Shape) (a : List String),
    Stem a (components sw.options.outputRoot ++ [σ.dirName]) →
      d.find? a = none ∨ d.find? a = some .dir
  /-- Every file of a shape's directory is one that a client of `W` wrote. -/
  file_written : ∀ (σ : Shape) (name : String) (data : ByteArray),
    d.find? (components sw.options.outputRoot ++ [σ.dirName, name]) = some (.file data) →
      ∃ w ∈ W, sw.Writes w.1 w.2 name data
  /-- The directory of every point of `Ds` is there, with the directories on the way. -/
  dir_made : ∀ p ∈ Ds, ∀ a, Stem a (components sw.options.outputRoot ++ [p.shape.dirName]) →
    d.find? a = some .dir
  /-- Every client of `W` has its files there. -/
  files_made : ∀ w ∈ W, ∀ name data, sw.Writes w.1 w.2 name data →
    d.find? (components sw.options.outputRoot ++ [w.1.shape.dirName, name]) = some (.file data)

/-- The clients that write their files when the runs of the client counts `F` fail: every client
of every point of `ps` that passes the rules and whose count is not in `F`. -/
def completedClients (F : List ℕ) (ps : List Point) : List (Point × ℕ) :=
  ps.flatMap fun p =>
    if p.shape.validate = none ∧ p.clients ∉ F then (sw.runOf p).indices.map (p, ·) else []

section Writes

variable {sw} {p p' : Point} {i i' : ℕ} {name : String} {data data' : ByteArray}

theorem latencies_mem_readSuffixes : "reqLatencies.dat" ∈ readSuffixes := .head _

theorem summaries_mem_readSuffixes : "execSummary.dat" ∈ readSuffixes := .tail _ (.head _)

/-- Two clients that write a file of the same name write the same bytes: the name gives the
client, the kind and the client count, and the bytes depend on nothing else. -/
theorem Writes.data_eq (h : sw.Writes p i name data) (h' : sw.Writes p' i' name data') :
    data = data' := by
  have hkinds : "reqLatencies.dat" ≠ "execSummary.dat" := by decide
  rcases h with ⟨rfl, rfl⟩ | ⟨rfl, rfl⟩ <;> rcases h' with ⟨hn, rfl⟩ | ⟨hn, rfl⟩
  · obtain ⟨hc, rfl, -⟩ := RunFiles.entry_inj latencies_mem_readSuffixes
      latencies_mem_readSuffixes hn
    simp only [runOf] at hc
    rw [hc]
  · exact absurd (RunFiles.entry_inj latencies_mem_readSuffixes summaries_mem_readSuffixes
      hn).2.2 hkinds
  · exact absurd (RunFiles.entry_inj summaries_mem_readSuffixes latencies_mem_readSuffixes
      hn).2.2 (Ne.symm hkinds)
  · obtain ⟨hc, -, -⟩ := RunFiles.entry_inj summaries_mem_readSuffixes
      summaries_mem_readSuffixes hn
    simp only [runOf] at hc
    rw [hc]

/-- A client file named for a run was written by a client of a run of the same count. -/
theorem Writes.clients_eq {s : String} (hs : s ∈ readSuffixes)
    (h : sw.Writes p i ((sw.runOf p').entry (toString i') s) data) : p.clients = p'.clients := by
  rcases h with ⟨hn, -⟩ | ⟨hn, -⟩
  · exact (RunFiles.entry_inj latencies_mem_readSuffixes hs hn.symm).1
  · exact (RunFiles.entry_inj summaries_mem_readSuffixes hs hn.symm).1

/-- No client writes a file of a name that a reduction writes. -/
theorem Writes.ne_written {x t : String} (ht : t ∈ writeSuffixes)
    (h : sw.Writes p i name data) : name ≠ x ++ t := by
  rcases h with ⟨rfl, -⟩ | ⟨rfl, -⟩
  · have happart := suffixes_apart _ latencies_mem_readSuffixes t ht
    exact append_ne_append happart.1 happart.2
  · have happart := suffixes_apart _ summaries_mem_readSuffixes t ht
    exact append_ne_append happart.1 happart.2

theorem writes_latencies (sw : Sweep) (p : Point) (i : ℕ) :
    sw.Writes p i ((sw.runOf p).entry (toString i) "reqLatencies.dat")
      (Simulation.latencyText i (sw.options.ops.requests p.clients)).toUTF8 :=
  .inl ⟨rfl, rfl⟩

theorem writes_summaries (sw : Sweep) (p : Point) (i : ℕ) :
    sw.Writes p i ((sw.runOf p).entry (toString i) "execSummary.dat")
      (Simulation.summaryText Binary64.one (sw.options.ops.requests p.clients)).toUTF8 :=
  .inr ⟨rfl, rfl⟩

end Writes

/-! ## One point at a time -/

/-- Writing a result file where a file may go puts it there. -/
theorem Simulation.writeResult_of_fileSlot {τ : Type} {path text : String} {d : Disk}
    {p : List String} (h : d.fileSlot path = .ok p) (s : τ) :
    (Simulation.writeResult path text : Stopping Abort (Disk × τ) Unit).runFrom (d, s) =
      (.ok (), (d.put p (.file text.toUTF8), s)) := by
  simp only [Simulation.writeResult, Stopping.runFrom_bind, Stopping.runFrom_get, createFile_eq, h]
  rfl

section Steps

variable {sw} {Ds : List Point} {W : List (Point × ℕ)} {d : Disk}

/-- A disk on which the program created nothing holds nothing below a fresh output root. -/
theorem recorded_host {h : Host.System} (hroot : FreshRoot h sw.options.outputRoot) :
    sw.Recorded [] [] { host := h } := by
  refine ⟨hroot, fun σ name => by simp [find?_host_entry hroot], fun σ a ha => ?_,
    fun σ name data hf => ?_, fun p hp => absurd hp List.not_mem_nil,
    fun w hw => absurd hw List.not_mem_nil⟩
  · -- the host holds a directory or nothing on the way to the root, and nothing below it
    refine find?_host_of_entry ?_
    rcases stem_append_cases ha with ha | ⟨b, hb, rfl⟩
    · exact hroot.way a ha
    · obtain ⟨-, -, -, hd₄⟩ := Reduction.ne_of_two_lt_length σ.dirName_plain.2.1
      rcases stem_cons.1 hb with rfl | ⟨b', hb', -⟩
      · exact .inl (hroot.below σ.dirName [] hd₄)
      · exact absurd hb' not_stem_nil
  · rw [find?_host_entry hroot] at hf
    exact absurd hf (by simp)

/-- Making the directory of a point's run makes it, with every directory on the way, and leaves
the entries of the shapes' directories as they were. -/
theorem Recorded.createDirAll (h : sw.Recorded Ds W d) {p : Point} (hfit : Fits (sw.runOf p).dir) :
    ∃ d₁, d.createDirAll (sw.runOf p).dir = (d₁, none) ∧ sw.Recorded (Ds ++ [p]) W d₁ := by
  rw [runOf_dir] at hfit ⊢
  have hcs : components (joinPath sw.options.outputRoot p.shape.dirName) =
      components sw.options.outputRoot ++ [p.shape.dirName] := components_shapeDir p.shape
  obtain ⟨d₁, hd₁, hmade⟩ := createDirAll_direct hfit h.fresh.direct_shapeDir
    (by rw [hcs]; exact h.way_not_file p.shape)
  rw [hcs] at hmade
  -- the entries lie below the directories made, so none of them changes
  have hentry : ∀ (σ : Shape) (name : String),
      d₁.find? (components sw.options.outputRoot ++ [σ.dirName, name]) =
        d.find? (components sw.options.outputRoot ++ [σ.dirName, name]) := by
    intro σ name
    rw [hmade.find?, if_neg fun hs => not_stem_entry hs rfl]
  refine ⟨d₁, hd₁, ⟨hmade.host ▸ h.fresh, fun σ name => ?_, fun σ a ha => ?_,
    fun σ name data hf => ?_, fun p' hp' a ha => ?_, fun w hw name data hwr => ?_⟩⟩
  · rw [hentry]
    exact h.entry_not_dir σ name
  · rw [hmade.find? a]
    split_ifs
    · exact .inr rfl
    · exact h.way_not_file σ a ha
  · rw [hentry] at hf
    exact h.file_written σ name data hf
  · rw [hmade.find? a]
    split_ifs with hs
    · rfl
    · rcases List.mem_append.1 hp' with hp' | hp'
      · exact h.dir_made p' hp' a ha
      · rw [List.mem_singleton.1 hp'] at ha
        exact absurd ha hs
  · rw [hentry]
    exact h.files_made w hw name data hwr

/-- Client `i` of a point whose directory is made writes its latencies and then its summary:
both land at their places, and the disk is as recorded with the client added. -/
theorem Recorded.writeClient {τ : Type} (h : sw.Recorded Ds W d) {p : Point} (htest : '/' ∉ p.test.toList)
    (hp : p ∈ Ds) {i : ℕ} (hlat : Fits ((sw.runOf p).latencies i))
    (hsum : Fits ((sw.runOf p).summary i)) (s : τ) :
    ∃ d', (do
        Simulation.writeResult ((sw.runOf p).latencies i)
          (Simulation.latencyText i (sw.options.ops.requests p.clients))
        Simulation.writeResult ((sw.runOf p).summary i)
          (Simulation.summaryText Binary64.one (sw.options.ops.requests p.clients)) :
        Stopping Abort (Disk × τ) Unit).runFrom (d, s) = (.ok (), (d', s)) ∧
      sw.Recorded Ds (W ++ [(p, i)]) d' := by
  -- the places of the two files, and what each holds once written
  rw [RunFiles.latencies, runOf_file] at hlat
  rw [RunFiles.summary, runOf_file] at hsum
  rw [RunFiles.latencies, RunFiles.summary, runOf_file, runOf_file]
  set R := components sw.options.outputRoot
  set nL := (sw.runOf p).entry (toString i) "reqLatencies.dat"
  set nS := (sw.runOf p).entry (toString i) "execSummary.dat"
  set fL : Node := .file (Simulation.latencyText i (sw.options.ops.requests p.clients)).toUTF8
  set fS : Node :=
    .file (Simulation.summaryText Binary64.one (sw.options.ops.requests p.clients)).toUTF8
  have hnameL : EntryName nL := RunFiles.entryName_entry htest (slash_not_mem_toString i)
    (List.mem_append_left _ latencies_mem_readSuffixes)
  have hnameS : EntryName nS := RunFiles.entryName_entry htest (slash_not_mem_toString i)
    (List.mem_append_left _ summaries_mem_readSuffixes)
  have hLS : nL ≠ nS := fun heq => absurd (RunFiles.entry_inj latencies_mem_readSuffixes
    summaries_mem_readSuffixes heq).2.2 (by decide)
  have hdirs := h.dir_made p hp
  -- the latencies
  have hslotL : d.fileSlot (joinPath (joinPath sw.options.outputRoot p.shape.dirName) nL) =
      .ok (R ++ [p.shape.dirName, nL]) :=
    fileSlot_shapeEntry h.fresh hnameL hlat hdirs (h.entry_not_dir _ _)
  have hfind₁ := find?_put (h.entry_not_dir p.shape nL) fL
  -- the summary, on the disk the latencies left
  have hdirs₁ : ∀ a, Stem a (R ++ [p.shape.dirName]) →
      (d.put (R ++ [p.shape.dirName, nL]) fL).find? a = some .dir := fun a ha => by
    rw [hfind₁, if_neg (not_stem_entry ha), hdirs a ha]
  have hnot₁ : (d.put (R ++ [p.shape.dirName, nL]) fL).find? (R ++ [p.shape.dirName, nS]) ≠
      some .dir := by
    rw [hfind₁]
    split_ifs
    · simp [fL]
    · exact h.entry_not_dir _ _
  have hslotS : (d.put (R ++ [p.shape.dirName, nL]) fL).fileSlot
      (joinPath (joinPath sw.options.outputRoot p.shape.dirName) nS) =
      .ok (R ++ [p.shape.dirName, nS]) :=
    fileSlot_shapeEntry h.fresh hnameS hsum hdirs₁ hnot₁
  have hfind : ∀ x, ((d.put (R ++ [p.shape.dirName, nL]) fL).put
      (R ++ [p.shape.dirName, nS]) fS).find? x =
        if x = R ++ [p.shape.dirName, nS] then some fS
        else if x = R ++ [p.shape.dirName, nL] then some fL else d.find? x := fun x => by
    rw [find?_put hnot₁, hfind₁]
  refine ⟨(d.put (R ++ [p.shape.dirName, nL]) fL).put (R ++ [p.shape.dirName, nS]) fS, ?_, ?_⟩
  · rw [Stopping.runFrom_bind, Simulation.writeResult_of_fileSlot hslotL]
    exact Simulation.writeResult_of_fileSlot hslotS s
  refine ⟨h.fresh, fun σ name => ?_, fun σ a ha => ?_, fun σ name data hf => ?_,
    fun p' hp' a ha => ?_, fun w hw name data hwr => ?_⟩
  · rw [hfind]
    split_ifs
    · simp [fS]
    · simp [fL]
    · exact h.entry_not_dir σ name
  · rw [hfind, if_neg (not_stem_entry ha), if_neg (not_stem_entry ha)]
    exact h.way_not_file σ a ha
  · -- a file of a shape's directory is one of the two, or was there before
    rw [hfind] at hf
    split_ifs at hf with h₁ h₂
    · obtain ⟨-, rfl⟩ := entry_place_inj h₁
      simp only [fS, Option.some.injEq, Node.file.injEq] at hf
      subst hf
      exact ⟨(p, i), List.mem_append_right _ (.head _), writes_summaries sw p i⟩
    · obtain ⟨-, rfl⟩ := entry_place_inj h₂
      simp only [fL, Option.some.injEq, Node.file.injEq] at hf
      subst hf
      exact ⟨(p, i), List.mem_append_right _ (.head _), writes_latencies sw p i⟩
    · obtain ⟨w, hw, hwr⟩ := h.file_written σ name data hf
      exact ⟨w, List.mem_append_left _ hw, hwr⟩
  · rw [hfind, if_neg (not_stem_entry ha), if_neg (not_stem_entry ha)]
    exact h.dir_made p' hp' a ha
  · rw [hfind]
    rcases List.mem_append.1 hw with hw | hw
    · -- an earlier client whose file is written again: the same bytes
      split_ifs with h₁ h₂
      · obtain ⟨-, rfl⟩ := entry_place_inj h₁
        rw [hwr.data_eq (writes_summaries sw p i)]
      · obtain ⟨-, rfl⟩ := entry_place_inj h₂
        rw [hwr.data_eq (writes_latencies sw p i)]
      · exact h.files_made w hw name data hwr
    · -- the client itself
      obtain rfl := List.mem_singleton.1 hw
      rcases hwr with ⟨rfl, rfl⟩ | ⟨rfl, rfl⟩
      · rw [if_neg fun heq => hLS (entry_place_inj heq).2, if_pos rfl]
      · rw [if_pos rfl]

/-- The clients `l` of a point whose directory is made write their files one after the
other. -/
theorem Recorded.forM_clients {τ : Type} {p : Point} (htest : '/' ∉ p.test.toList) (hp : p ∈ Ds) (hfit : (sw.runOf p).ClientsFit) :
    ∀ (l : List ℕ) (W : List (Point × ℕ)) (d : Disk) (s : τ), sw.Recorded Ds W d →
      (∀ i ∈ l, i ∈ (sw.runOf p).indices) →
      ∃ d', (l.forM fun i => do
          Simulation.writeResult ((sw.runOf p).latencies i)
            (Simulation.latencyText i (sw.options.ops.requests p.clients))
          Simulation.writeResult ((sw.runOf p).summary i)
            (Simulation.summaryText Binary64.one (sw.options.ops.requests p.clients)) :
          Stopping Abort (Disk × τ) Unit).runFrom (d, s) = (.ok (), (d', s)) ∧
        sw.Recorded Ds (W ++ l.map (p, ·)) d'
  | [], W, d, s, h, _ => ⟨d, rfl, by simpa using h⟩
  | i :: l, W, d, s, h, hl => by
    obtain ⟨d₁, hrun₁, h₁⟩ := h.writeClient htest hp (hfit.latencies i (hl i (.head _)))
      (hfit.summaries i (hl i (.head _))) s
    obtain ⟨d₂, hrun₂, h₂⟩ := Recorded.forM_clients htest hp hfit l _ d₁ s h₁
      (fun j hj => hl j (.tail _ hj))
    refine ⟨d₂, ?_, by simpa using h₂⟩
    rw [List.forM, Stopping.runFrom_bind, hrun₁]
    exact hrun₂

end Steps

/-! ## The recording runner -/

section Runner

@[simp] theorem Stopping.runFrom_modify {ε τ : Type} (f : τ → τ) (s : τ) :
    (modify f : Stopping ε τ PUnit).runFrom s = (.ok ⟨⟩, f s) := rfl

variable {F : List ℕ} {inv : Invocation} {d : Disk} {seen : List Invocation}

theorem recording_of_mem (h : inv.clientProcesses * inv.client.threads ∈ F) :
    ((Runner.recording F true).run inv).runFrom (d, seen) =
      (.ok (.error (.other ("simulated failure with " ++
        toString (inv.clientProcesses * inv.client.threads) ++ " clients"))),
        (d, seen ++ [inv])) := by
  simp [Runner.recording, h]
  rfl

theorem recording_of_not_mem (h : inv.clientProcesses * inv.client.threads ∉ F) {d' : Disk}
    (hw : (Simulation.writeRun inv.client.outputDir inv.client.test
      (inv.clientProcesses * inv.client.threads) inv.client.requests).runFrom
        (d, seen ++ [inv]) = (.ok (), (d', seen ++ [inv]))) :
    ((Runner.recording F true).run inv).runFrom (d, seen) = (.ok (.ok ()), (d', seen ++ [inv])) := by
  simp only [Runner.recording, h, List.contains_iff_mem, if_false, if_true,
    Stopping.runFrom_bind, Stopping.runFrom_modify, hw, Stopping.runFrom_pure]

end Runner

/-! ## A whole recorded run -/

theorem Space.mem_points {S : Space} {p : Point} :
    p ∈ S.points ↔ p.shape ∈ S.shapes ∧ p.test ∈ S.tests ∧ p.clients ∈ S.clients := by
  obtain ⟨σ, t, c⟩ := p
  simp [Space.points]

section Run

variable {sw} {F : List ℕ}

/-- Recording one point: it is skipped, failed or completed as `recordedOutcome` says, its
directory is made when it passes the rules, and its clients write their files when its run
completes. -/
theorem Recorded.visit {Ds : List Point} {W : List (Point × ℕ)} {d : Disk}
    (h : sw.Recorded Ds W d) {p : Point}
    (htest : '/' ∉ p.test.toList)
    (hp : p.shape.validate = none → (∃ q, sw.options.ops.quota p.clients = .ok q) ∧
      (sw.runOf p).ClientsFit)
    (seen : List Invocation) :
    ∃ d' seen', (sw.visit (Runner.recording F true) p).runFrom (d, seen) =
        (.ok (p, recordedOutcome F p), (d', seen')) ∧
      sw.Recorded (Ds ++ [p].filter fun p => p.shape.validate.isNone)
        (W ++ sw.completedClients F [p]) d' := by
  cases hv : p.shape.validate with
  | some v =>
    -- a point that breaks a rule: nothing changes
    refine ⟨d, seen, ?_, by simpa [completedClients, hv] using h⟩
    rw [visit_of_invalid hv]
    simp [recordedOutcome, hv]
  | none =>
    obtain ⟨⟨q, hq⟩, hfit⟩ := hp hv
    set rc : RunConfig :=
      ⟨p, Topology.resolve p.clients, q, joinPath sw.options.outputRoot p.shape.dirName⟩
    have hrc : RunConfig.resolve p sw.options.ops sw.options.outputRoot = .ok rc :=
      RunConfig.resolve_eq_ok_iff.2 ⟨q, hq, rfl⟩
    obtain ⟨d₁, hd₁, h₁⟩ := h.createDirAll hfit.dir
    have hdir : (d, seen).1.createDirAll rc.outputDir = (d₁, none) := hd₁
    rw [visit_of_resolved hv hrc, runConfig_of_dir hdir]
    -- the invocation runs the point's clients, each issuing the point's requests
    -- the runner records the invocation, which runs the point's clients with its requests
    set inv := rc.invocation sw.options.cluster sw.options.client
    have hclients : inv.clientProcesses * inv.client.threads = p.clients :=
      Topology.resolve_clients p.clients
    have hreq : inv.client.requests = sw.options.ops.requests p.clients :=
      OpsTarget.perClientRequests_eq hq
    by_cases hF : p.clients ∈ F
    · refine ⟨d₁, seen ++ [inv], ?_, by simpa [completedClients, hv, hF] using h₁⟩
      rw [recording_of_mem (by rwa [hclients])]
      simp [recordedOutcome, hv, hF, Outcome.ofAnswer, hclients]
    · obtain ⟨d₂, hrun, h₂⟩ := Recorded.forM_clients (τ := List Invocation) htest
        (List.mem_append_right _ (.head _)) hfit (sw.runOf p).indices W d₁ (seen ++ [inv]) h₁
        fun i hi => hi
      -- the files the runner writes are those of the point's run
      have hwrite : (Simulation.writeRun inv.client.outputDir inv.client.test
          (inv.clientProcesses * inv.client.threads) inv.client.requests).runFrom
            (d₁, seen ++ [inv]) = (.ok (), (d₂, seen ++ [inv])) := by
        rw [hclients, hreq]
        exact hrun
      refine ⟨d₂, seen ++ [inv], ?_, by simpa [completedClients, hv, hF] using h₂⟩
      rw [recording_of_not_mem (by rwa [hclients]) hwrite]
      simp [recordedOutcome, hv, hF, Outcome.ofAnswer]

/-- Recording the points `ps` one after the other, each as `Recorded.visit` says.  Induction on
the points, carrying the disk's description from one to the next. -/
theorem Recorded.mapM_visit :
    ∀ (ps : List Point) (Ds : List Point) (W : List (Point × ℕ)) (d : Disk)
      (seen : List Invocation), sw.Recorded Ds W d →
      (∀ p ∈ ps, '/' ∉ p.test.toList ∧ (p.shape.validate = none →
        (∃ q, sw.options.ops.quota p.clients = .ok q) ∧ (sw.runOf p).ClientsFit)) →
      ∃ d' seen', (ps.mapM (sw.visit (Runner.recording F true))).runFrom (d, seen) =
          (.ok (ps.map fun p => (p, recordedOutcome F p)), (d', seen')) ∧
        sw.Recorded (Ds ++ ps.filter fun p => p.shape.validate.isNone)
          (W ++ sw.completedClients F ps) d'
  | [], Ds, W, d, seen, h, _ => ⟨d, seen, rfl, by simpa [completedClients] using h⟩
  | p :: ps, Ds, W, d, seen, h, hps => by
    obtain ⟨htest, hp⟩ := hps p (.head _)
    obtain ⟨d₁, seen₁, hvisit, h₁⟩ := h.visit (F := F) htest hp seen
    obtain ⟨d₂, seen₂, hrest, h₂⟩ := Recorded.mapM_visit ps _ _ d₁ seen₁ h₁
      fun p' hp' => hps p' (.tail _ hp')
    refine ⟨d₂, seen₂, ?_, ?_⟩
    · simp only [List.mapM_cons, Stopping.runFrom_bind, hvisit, hrest, Stopping.runFrom_pure,
        List.map_cons]
    · have hDs : Ds ++ [p].filter (fun p => p.shape.validate.isNone) ++
          ps.filter (fun p => p.shape.validate.isNone) =
            Ds ++ (p :: ps).filter fun p => p.shape.validate.isNone := by
        rw [List.append_assoc, ← List.filter_append]
        rfl
      have hW : W ++ sw.completedClients F [p] ++ sw.completedClients F ps =
          W ++ sw.completedClients F (p :: ps) := by
        simp [completedClients]
      rwa [hDs, hW] at h₂

/-- A sweep recorded on a disk on which nothing was created below a fresh output root, with tests
whose names have no `/`, quotas that fit and paths the system accepts, reports every point as the
recording runner answers it, and leaves the directories of the valid points and the files of the
clients of their completed runs. -/
theorem run_recorded {h : Host.System} (hroot : FreshRoot h sw.options.outputRoot)
    (htests : ∀ t ∈ sw.space.tests, '/' ∉ t.toList) (hq : sw.QuotasFit)
    (hfit : ∀ p ∈ sw.space.points, p.shape.validate = none → (sw.runOf p).ClientsFit) :
    ∃ D seen, (sw.run (Runner.recording F true)).runFrom ({ host := h }, []) =
        (.ok ⟨sw.space.points.map fun p => (p, recordedOutcome F p)⟩, (D, seen)) ∧
      sw.Recorded (sw.space.points.filter fun p => p.shape.validate.isNone)
        (sw.completedClients F sw.space.points) D := by
  obtain ⟨D, seen, hrun, hD⟩ := Recorded.mapM_visit sw.space.points [] [] { host := h } []
    (recorded_host hroot) fun p hp => ⟨htests p.test (Space.mem_points.1 hp).2.1,
      fun hv => ⟨hq p hp hv, hfit p hp hv⟩⟩
  refine ⟨D, seen, ?_, by simpa using hD⟩
  simp only [run, Stopping.runFrom_bind, hrun, Stopping.runFrom_pure]

end Run

end Sweep

end ClusterSweep
