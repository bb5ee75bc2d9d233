import Mathlib
import ClusterSweep.Layout
import ClusterSweep.Disk

/-!
# What a disk operation looks at

A path is resolved by a walk whose places are fixed by the path and the links of the host: what
the program created only decides whether the walk gets through.  `Disk.lookups h cs` lists the
places that resolving the components `cs` on the host `h` looks up on the way, each of which
must be a directory for the walk to go on, and `Disk.reach h cs` the place it ends at.  Reading
a file therefore depends on the disk only at those places and at the place reached
(`readFile_congr`).  Creating a file depends on them and on whether the place reached is a
directory (`fileSlot_congr`), and changes the disk at that one place (`createFile_eq`,
`find?_put`).

A path joined with `joinPath` has the components of its parts (`components_joinPath`).  On a host
whose links keep their names (`Host.System.KeepsNames`), such as the standard one, the place
that a last component `c` leads to ends in `c` (`getLast?_child`), so files of different names
are different places wherever their directories lie.
-/

namespace ClusterSweep

namespace Disk

/-! ## The places of a walk -/

variable (h : Host.System)

/-- The place that the component `c` leads to from `cur`, when the walk gets through. -/
def stepPlace (cur : List String) (c : String) : List String :=
  if c == ".." then up cur else child h cur c

/-- The places that walking every component of `cs` from `cur` looks up: the place of each
component but `..`. -/
def dirTrail (cur : List String) : List String → List (List String)
  | [] => []
  | c :: rest => (if c == ".." then [] else [child h cur c]) ++ dirTrail (stepPlace h cur c) rest

/-- The place that walking `cs` from `cur` ends at. -/
def endPlace (cur cs : List String) : List String := cs.foldl (stepPlace h) cur

/-- Where resolving the components `cs` starts, the root for an absolute path and the working
directory otherwise, and the components walked from there. -/
def origin : List String → List String × List String
  | "/" :: rest => (["/"], rest)
  | cs => ([], cs)

/-- The places that resolving `cs` looks up on the way: every one must be a directory. -/
def lookups (cs : List String) : List (List String) :=
  dirTrail h (origin cs).1 (origin cs).2.dropLast

/-- The place that resolving `cs` reaches. -/
def reach (cs : List String) : List String := endPlace h (origin cs).1 (origin cs).2

theorem dirTrail_append (cur xs ys : List String) :
    dirTrail h cur (xs ++ ys) = dirTrail h cur xs ++ dirTrail h (endPlace h cur xs) ys := by
  induction xs generalizing cur with
  | nil => simp [dirTrail, endPlace]
  | cons c rest ih => simp [dirTrail, endPlace, ih]

@[simp]
theorem host_put (d : Disk) (p : List String) (n : Node) : (d.put p n).host = d.host := rfl

/-- Walking gets through exactly when every place it looks up is a directory, and then it ends at
the place the components lead to; on disks of one host it does not depend on the disk anywhere
else. -/
theorem walk_congr {d d' : Disk} {cur cs : List String} (hh : d'.host = d.host)
    (h : ∀ p ∈ dirTrail d.host cur cs.dropLast, d.find? p = d'.find? p) :
    d.walk cur cs = d'.walk cur cs := by
  induction cs generalizing cur with
  | nil => simp [walk]
  | cons c rest ih =>
    cases rest with
    | nil => simp [walk, hh]
    | cons c' rest =>
      simp only [List.dropLast_cons_cons, dirTrail, List.mem_append] at h
      by_cases hc : c == ".."
      · simp only [hc, if_true, List.not_mem_nil, false_or, stepPlace] at h
        simp only [walk, hc, if_true]
        exact ih h
      · simp only [hc, Bool.false_eq_true, if_false, List.mem_singleton, stepPlace] at h
        have hchild := h _ (.inl rfl)
        simp only [walk, hc, Bool.false_eq_true, if_false, hchild, hh]
        split_ifs
        · rfl
        · -- the place of `c` is a directory, a file or nothing, alike on both disks
          split
          · exact ih fun p hp => h p (.inr hp)
          · rfl
          · rfl

theorem walk_eq_ok {d : Disk} {cur cs p : List String} (h : d.walk cur cs = .ok p) :
    p = endPlace d.host cur cs ∧ ∀ q ∈ dirTrail d.host cur cs.dropLast, d.find? q = some .dir := by
  induction cs generalizing cur with
  | nil =>
    simp only [walk, Except.ok.injEq] at h
    simp [h, endPlace, dirTrail]
  | cons c rest ih =>
    cases rest with
    | nil =>
      simp only [walk] at h
      split_ifs at h with hc hlong <;> simp_all [endPlace, stepPlace, dirTrail]
    | cons c' rest =>
      simp only [List.dropLast_cons_cons, dirTrail, List.mem_append]
      by_cases hc : c == ".."
      · simp only [walk, hc, if_true] at h
        obtain ⟨rfl, hdirs⟩ := ih h
        refine ⟨by simp [hc, endPlace, stepPlace], ?_⟩
        simpa [hc, stepPlace] using hdirs
      · simp only [walk, hc, Bool.false_eq_true, if_false] at h
        split_ifs at h
        split at h
        · rename_i hfind
          obtain ⟨rfl, hdirs⟩ := ih h
          refine ⟨by simp [endPlace, stepPlace, hc], ?_⟩
          simp only [hc, Bool.false_eq_true, if_false, List.mem_singleton, stepPlace]
          rintro q (rfl | hq)
          · exact hfind
          · exact hdirs q hq
        · simp at h
        · simp at h

/-! ## Resolving, reading and creating -/

theorem resolve_eq (d : Disk) (cs : List String) :
    d.resolve cs = d.walk (origin cs).1 (origin cs).2 := by
  cases cs with
  | nil => rfl
  | cons c rest =>
    by_cases hc : c = "/"
    · subst hc
      rfl
    · simp [resolve, origin, hc]

theorem resolve_congr {d d' : Disk} {cs : List String} (hh : d'.host = d.host)
    (h : ∀ p ∈ lookups d.host cs, d.find? p = d'.find? p) : d.resolve cs = d'.resolve cs := by
  rw [resolve_eq, resolve_eq]
  exact walk_congr hh h

theorem resolve_eq_ok {d : Disk} {cs p : List String} (h : d.resolve cs = .ok p) :
    p = reach d.host cs ∧ ∀ q ∈ lookups d.host cs, d.find? q = some .dir := by
  rw [resolve_eq] at h
  exact walk_eq_ok h

/-- Putting a node at a place that is no directory changes what that place names and nothing
else. -/
theorem find?_put {d : Disk} {p : List String} (hp : d.find? p ≠ some .dir) (n : Node)
    (q : List String) : (d.put p n).find? q = if q = p then some n else d.find? q := by
  have hfixed : ¬ (p == ["/"] || p.all (· == "..")) = true := by
    intro hfix
    exact hp (by simp [find?, hfix])
  unfold find? put
  by_cases hq : q = p
  · subst hq
    simp only [hfixed, if_true, List.find?_append]
    rw [List.find?_eq_none.2 (by simp [List.mem_filter])]
    simp
  · simp only [hq, if_false, List.find?_append]
    rw [List.find?_filter]
    have hsame : (fun a : List String × Node => decide ((a.1 != p) = true ∧ (a.1 == q) = true)) =
        (·.1 == q) := by
      funext a
      by_cases ha : a.1 = q <;> simp [ha, hq]
    rw [hsame]
    cases hfind : d.nodes.find? (·.1 == q) with
    | some a => simp
    | none => simp [Ne.symm hq]

theorem readFile_congr {d d' : Disk} {path : String} (hh : d'.host = d.host)
    (hl : ∀ p ∈ lookups d.host (components path), d.find? p = d'.find? p)
    (hr : d.find? (reach d.host (components path)) = d'.find? (reach d.host (components path))) :
    d.readFile path = d'.readFile path := by
  unfold readFile
  rw [resolve_congr hh hl]
  cases hres : d'.resolve (components path) with
  | error e => rfl
  | ok p =>
    obtain ⟨rfl, -⟩ := resolve_eq_ok hres
    rw [hh]
    simp only [bind, Except.bind, hr]

/-- Where `createFile` puts a file at `path`, or why it cannot: all of it but the last step. -/
def fileSlot (d : Disk) (path : String) : Except IoError (List String) := do
  checkPath path
  if path.isEmpty then throw .notFound
  let p ← d.resolve (components path)
  match d.find? p with
  | some .dir => throw .isADirectory
  | some (.file _) => if namesDirectory path then throw .notADirectory else pure p
  | none => if namesDirectory path then throw .isADirectory else pure p

theorem createFile_eq (d : Disk) (path : String) (data : ByteArray) :
    d.createFile path data = (d.fileSlot path).map (d.put · (.file data)) := by
  unfold createFile fileSlot
  cases checkPath path with
  | error e => rfl
  | ok u =>
    by_cases hempty : path.isEmpty
    · simp [bind, Except.bind, hempty, throw, throwThe, MonadExceptOf.throw, Except.map]
    · simp only [bind, Except.bind, hempty, Bool.false_eq_true, if_false, pure, Except.pure]
      cases d.resolve (components path) with
      | error e => rfl
      | ok p =>
        simp only
        -- the two matches look at the same place
        cases hf : d.find? p with
        | none =>
          by_cases hnd : namesDirectory path <;>
            simp [hnd, Except.map, throw, throwThe, MonadExceptOf.throw]
        | some n =>
          cases n <;> by_cases hnd : namesDirectory path <;>
            simp [hnd, Except.map, throw, throwThe, MonadExceptOf.throw]

theorem fileSlot_congr {d d' : Disk} {path : String} (hnd : namesDirectory path = false)
    (hh : d'.host = d.host)
    (hl : ∀ p ∈ lookups d.host (components path), d.find? p = d'.find? p)
    (hr : d.find? (reach d.host (components path)) = some .dir ↔
      d'.find? (reach d.host (components path)) = some .dir) :
    d.fileSlot path = d'.fileSlot path := by
  unfold fileSlot
  rw [resolve_congr hh hl]
  cases hres : d'.resolve (components path) with
  | error e => rfl
  | ok p =>
    obtain ⟨rfl, -⟩ := resolve_eq_ok hres
    rw [hh]
    simp only [bind, Except.bind, hnd, Bool.false_eq_true, if_false]
    -- only whether the place is a directory matters
    cases h : d.find? (reach d.host (components path)) with
    | none =>
      cases h' : d'.find? (reach d.host (components path)) with
      | none => rfl
      | some n' => cases n' <;> simp_all
    | some n =>
      cases h' : d'.find? (reach d.host (components path)) with
      | none => cases n <;> simp_all
      | some n' => cases n <;> cases n' <;> simp_all

theorem fileSlot_eq_ok {d : Disk} {path : String} {p : List String} (h : d.fileSlot path = .ok p) :
    p = reach d.host (components path) ∧
      (∀ q ∈ lookups d.host (components path), d.find? q = some .dir) ∧ d.find? p ≠ some .dir := by
  unfold fileSlot at h
  cases hc : checkPath path with
  | error e => simp [hc, bind, Except.bind] at h
  | ok u =>
    by_cases hempty : path.isEmpty
    · simp [hc, hempty, bind, Except.bind, throw, throwThe, MonadExceptOf.throw] at h
    · simp only [hc, hempty, bind, Except.bind, Bool.false_eq_true, if_false] at h
      cases hres : d.resolve (components path) with
      | error e => simp [hres] at h
      | ok q =>
        obtain ⟨rfl, hdirs⟩ := resolve_eq_ok hres
        simp only [hres] at h
        -- only a place that is no directory gives a slot, and only when the path does not
        -- name a directory
        have hslot : d.find? (reach d.host (components path)) ≠ some .dir ∧
            reach d.host (components path) = p := by
          cases hf : d.find? (reach d.host (components path)) with
          | none =>
            by_cases hnd : namesDirectory path <;>
              simp_all [throw, throwThe, MonadExceptOf.throw, pure, Except.pure]
          | some n =>
            cases n <;> by_cases hnd : namesDirectory path <;>
              simp_all [throw, throwThe, MonadExceptOf.throw, pure, Except.pure]
        obtain ⟨hnotdir, rfl⟩ := hslot
        exact ⟨rfl, hdirs, hnotdir⟩

/-! ## Paths and places -/

/-- The components of the characters `l` split at `/`, leaving out the empty ones and `.`: all of
`components` but the root. -/
def parts (l : List Char) : List String :=
  ((l.splitOn '/').map String.ofList).filter fun c => c != "" && c != "."

theorem components_eq (p : String) :
    components p = (if p.startsWith "/" then ["/"] else []) ++ parts p.toList := rfl

theorem parts_append_slash (l m : List Char) : parts (l ++ '/' :: m) = parts l ++ parts m := by
  simp [parts, List.splitOn_append_cons_self]

@[simp] theorem parts_nil : parts [] = [] := by
  simp [parts]

theorem parts_name {name : String} (hslash : '/' ∉ name.toList) (hne : name ≠ "")
    (hdot : name ≠ ".") : parts name.toList = [name] := by
  simp [parts, List.splitOn_eq_singleton hslash, hne, hdot]

/-- Whether a path is absolute shows in its first character. -/
theorem startsWith_slash_congr {a b : String} (h : a.toList.head? = b.toList.head?) :
    a.startsWith "/" = b.startsWith "/" := by
  have hpre : ∀ l : List Char, ['/'] <+: l ↔ l.head? = some '/' := by
    intro l
    cases l <;> simp [eq_comm]
  have hslash : "/".toList = ['/'] := rfl
  rw [Bool.eq_iff_iff, String.startsWith_string_iff, String.startsWith_string_iff, hslash, hpre,
    hpre, h]

/-- A name without `/` joined to a directory adds one component to the directory's. -/
theorem components_joinPath {dir name : String} (hslash : '/' ∉ name.toList) (hne : name ≠ "")
    (hdot : name ≠ ".") : components (joinPath dir name) = components dir ++ [name] := by
  have hstart : name.startsWith "/" = false := by
    rw [String.startsWith_string_eq_false_iff]
    rintro ⟨t, ht⟩
    exact hslash (by simp [← ht])
  unfold joinPath
  simp only [hstart, Bool.false_eq_true, if_false]
  split_ifs with hempty hends
  · rw [String.isEmpty_iff] at hempty
    subst hempty
    simp [components_eq, hstart, parts_name hslash hne hdot]
  · -- `dir` is `l/`: the joined path is `l/name`
    have hsuf : "/".toList <:+ dir.toList := by simpa [← String.endsWith_toSlice] using hends
    obtain ⟨l, hl⟩ := hsuf
    replace hl : dir.toList = l ++ ['/'] := hl.symm
    have hjoin : (dir ++ name).toList = l ++ '/' :: name.toList := by simp [hl]
    have hhead : (dir ++ name).toList.head? = dir.toList.head? := by simp [hl]
    rw [components_eq, components_eq, startsWith_slash_congr hhead, hjoin, hl,
      parts_append_slash, parts_append_slash, parts_nil, parts_name hslash hne hdot]
    simp
  · have hdir : dir.toList ≠ [] := by simpa [String.isEmpty_iff] using hempty
    have hjoin : (dir ++ "/" ++ name).toList = dir.toList ++ '/' :: name.toList := by simp
    have hhead : (dir ++ "/" ++ name).toList.head? = dir.toList.head? := by
      rw [hjoin, List.head?_append_of_ne_nil _ hdir]
    rw [components_eq, components_eq, startsWith_slash_congr hhead, hjoin, parts_append_slash,
      parts_name hslash hne hdot, List.append_assoc]

@[simp] theorem holdsZero_append (a b : String) :
    holdsZero (a ++ b) = (holdsZero a || holdsZero b) := by
  simp [holdsZero, String.toList_append]

/-- A path joined from parts without the zero character holds none. -/
theorem holdsZero_joinPath {dir name : String} (hdir : holdsZero dir = false)
    (hname : holdsZero name = false) : holdsZero (joinPath dir name) = false := by
  have hslash : holdsZero "/" = false := by decide
  unfold joinPath
  split_ifs <;> simp [hdir, hname, hslash]

/-- Joining adds at most a separator to the lengths of the parts. -/
theorem utf8ByteSize_joinPath_le (dir name : String) :
    (joinPath dir name).utf8ByteSize ≤ dir.utf8ByteSize + 1 + name.utf8ByteSize := by
  have hslash : "/".utf8ByteSize = 1 := by decide
  unfold joinPath
  split_ifs
  · omega
  · omega
  · rw [String.utf8ByteSize_append]
    omega
  · rw [String.utf8ByteSize_append, String.utf8ByteSize_append, hslash]

/-- A directory that passes the check, joined with a name without the zero character, passes it
while the whole stays below `pathMax` bytes. -/
theorem checkPath_joinPath {dir name : String} (hdir : checkPath dir = .ok ())
    (hname : holdsZero name = false)
    (hsize : dir.utf8ByteSize + 1 + name.utf8ByteSize < pathMax) :
    checkPath (joinPath dir name) = .ok () := by
  have hzero : holdsZero dir = false := by
    cases h : holdsZero dir
    · rfl
    · simp [checkPath, h] at hdir
  have hlt := (utf8ByteSize_joinPath_le dir name).trans_lt hsize
  simp [checkPath, holdsZero_joinPath hzero hname, Nat.not_le.2 hlt]

section KeepsNames

variable {h} (hk : h.KeepsNames)
include hk

/-- Following a link that keeps its name keeps the last component. -/
theorem getLast?_follow (p : List String) : (h.follow p).getLast? = p.getLast? := by
  unfold Host.System.follow
  split
  · rename_i target hlink
    exact hk p target hlink
  · rfl

/-- The place that a component leads to ends in it. -/
theorem getLast?_child (cur : List String) (c : String) : (child h cur c).getLast? = some c := by
  rw [child, getLast?_follow hk]
  simp

end KeepsNames

/-- A path below the components `cs` starts where `cs` starts. -/
theorem origin_append_cons {cs : List String} {a : String} (ha : a ≠ "/") (rest : List String) :
    origin (cs ++ a :: rest) = ((origin cs).1, (origin cs).2 ++ a :: rest) := by
  cases cs with
  | nil => simp [origin, ha]
  | cons c cs =>
    by_cases hc : c = "/"
    · subst hc
      rfl
    · simp [origin, hc]

theorem origin_append_pair {cs : List String} {a b : String} (ha : a ≠ "/") :
    origin (cs ++ [a, b]) = ((origin cs).1, (origin cs).2 ++ [a, b]) :=
  origin_append_cons ha [b]

/-- The places that resolving a path to the entry `b` of directory `a` below the components `cs`
looks up: those of `cs` and the directory `a`. -/
theorem lookups_append_pair {cs : List String} {a b : String} (ha : a ≠ "/") (ha' : a ≠ "..") :
    lookups h (cs ++ [a, b]) =
      dirTrail h (origin cs).1 (origin cs).2 ++
        [child h (endPlace h (origin cs).1 (origin cs).2) a] := by
  rw [lookups, origin_append_pair ha]
  have hdrop : ((origin cs).2 ++ [a, b]).dropLast = (origin cs).2 ++ [a] := by
    simp [List.dropLast_append_of_ne_nil]
  simp [hdrop, dirTrail_append, dirTrail, ha']

theorem reach_append_pair {cs : List String} {a b : String} (ha : a ≠ "/") (ha' : a ≠ "..")
    (hb : b ≠ "..") :
    reach h (cs ++ [a, b]) = child h (child h (endPlace h (origin cs).1 (origin cs).2) a) b := by
  rw [reach, origin_append_pair ha]
  simp [endPlace, stepPlace, ha', hb]

/-! ## Disks alike at some places -/

section Alike

variable {O : List String → Prop} {d d' d₁ d₁' d₂ d₂' : Disk}

/-- Two disks of one host, alike at the places `O` and in which places are directories. -/
structure Alike (O : List String → Prop) (d d' : Disk) : Prop where
  host : d'.host = d.host
  agree : ∀ p, O p → d.find? p = d'.find? p
  dirs : ∀ p, d.find? p = some .dir ↔ d'.find? p = some .dir

theorem Alike.refl (O : List String → Prop) (d : Disk) : Alike O d d :=
  ⟨rfl, fun _ _ => rfl, fun _ => Iff.rfl⟩

theorem Alike.trans (h : Alike O d d₁) (h' : Alike O d₁ d₂) : Alike O d d₂ :=
  ⟨h'.host.trans h.host, fun p hp => (h.agree p hp).trans (h'.agree p hp),
    fun p => (h.dirs p).trans (h'.dirs p)⟩

/-- The disks `d₁` and `d₁'` are alike at each place, or as `d` and `d'` were there. -/
def Tracks (d d' d₁ d₁' : Disk) : Prop :=
  ∀ p, d₁.find? p = d₁'.find? p ∨ (d₁.find? p = d.find? p ∧ d₁'.find? p = d'.find? p)

theorem Tracks.refl (d d' : Disk) : Tracks d d' d d' := fun _ => .inr ⟨rfl, rfl⟩

theorem Tracks.trans (h : Tracks d d' d₁ d₁') (h' : Tracks d₁ d₁' d₂ d₂') : Tracks d d' d₂ d₂' := by
  intro p
  rcases h' p with heq | ⟨h₂, h₂'⟩
  · exact .inl heq
  · rw [h₂, h₂']
    exact h p

/-- A file read alike from alike disks. -/
theorem Alike.readFile_eq {path : String} (h : Alike O d d')
    (hl : ∀ q ∈ lookups d.host (components path), O q) (hr : O (reach d.host (components path))) :
    d.readFile path = d'.readFile path :=
  readFile_congr h.host (fun q hq => h.agree q (hl q hq)) (h.agree _ hr)

/-- A file created alike on alike disks. -/
theorem Alike.fileSlot_eq {path : String} (h : Alike O d d')
    (hl : ∀ q ∈ lookups d.host (components path), O q) (hnd : namesDirectory path = false) :
    d.fileSlot path = d'.fileSlot path :=
  fileSlot_congr hnd h.host (fun q hq => h.agree q (hl q hq)) (h.dirs _)

/-- The same file put at the same place of two alike disks, where neither has a directory. -/
theorem Alike.put {p : List String} (h : Alike O d d') (hp : d.find? p ≠ some .dir)
    (hp' : d'.find? p ≠ some .dir) (data : ByteArray) :
    Alike O (d.put p (.file data)) (d'.put p (.file data)) ∧
      Tracks d d' (d.put p (.file data)) (d'.put p (.file data)) := by
  refine ⟨⟨h.host, fun q hq => ?_, fun q => ?_⟩, fun q => ?_⟩
  · rw [find?_put hp, find?_put hp']
    split_ifs
    · rfl
    · exact h.agree q hq
  · rw [find?_put hp, find?_put hp']
    split_ifs
    · exact Iff.rfl
    · exact h.dirs q
  · rw [find?_put hp, find?_put hp']
    split_ifs
    · exact .inl rfl
    · exact .inr ⟨rfl, rfl⟩

/-- A file put at a place that is neither of `O` nor a directory leaves the disk alike. -/
theorem alike_put {p : List String} (hO : ¬ O p) (hp : d.find? p ≠ some .dir) (data : ByteArray) :
    Alike O d (d.put p (.file data)) := by
  refine ⟨rfl, fun q hq => ?_, fun q => ?_⟩
  · rw [find?_put hp]
    have hqp : q ≠ p := fun hqp => hO (hqp ▸ hq)
    simp [hqp]
  · rw [find?_put hp]
    split_ifs with hqp
    · subst hqp
      simp [hp]
    · exact Iff.rfl

end Alike

end Disk

end ClusterSweep
