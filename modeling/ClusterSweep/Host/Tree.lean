import ClusterSweep.Host.Tool

/-!
# Host systems

A program runs on a host system: the file system it finds when it starts, with the programs
in it.  The host is a parameter of every disk (`Disk.host`); the program reads it and never
changes it, and what the program creates lies over it.  Places are normal paths: an absolute
place starts with the component `/`, a relative one lies below the working directory.  A place
of the host is a directory, a file with its bytes, a program, or a link that stands for another
place, symbolic or hard: a path that passes through a link, or ends at one, goes on from the
link's target.  A link's target is no link itself (`System.target_not_link`), so one step of
following always ends; chains of links are not modelled.

`Host.standard` stands for the host the program is tested on, as far as the program can see it:
the usual top-level directories, a few plain files such as `/etc/passwd` and `/dev/null`, read
as empty, the tools of `/usr/bin` and `/usr/sbin` (`Host.Tool`), the links `/bin`, `/sbin` and
`/lib` to their namesakes under `/usr`, and nothing below the working directory.  It is an
abstraction, not an image: the contents of the plain files are left out, and so is the part of
the stream editor's help text after its usage line.  Theorems about what a run leaves on a disk
hold for every host that meets their hypotheses, not only for this one.
-/

namespace ClusterSweep

namespace Host

/-- What a place of the host's file system holds. -/
inductive Entry where
  /-- A directory. -/
  | dir
  /-- A file with its bytes, which no one may execute. -/
  | file (data : ByteArray)
  /-- A program: what it does when started under a name with some arguments. -/
  | program (run : String → List String → ProgramRun)
  /-- A link to the place `target`. -/
  | link (target : List String)

/-- A host system: its file system, as what each place holds, and the directories searched for
a program named without a `/`. -/
structure System where
  /-- What the place `p` holds, if anything. -/
  entry? : List String → Option Entry
  /-- The directories searched, in order, for a program named without a `/`. -/
  searchPath : List (List String)
  /-- A link's target is no link. -/
  target_not_link : ∀ p t, entry? p = some (.link t) → ∀ t', entry? t ≠ some (.link t')

namespace System

/-- The place that the place `p` stands for: a link's target, or the place itself. -/
def follow (h : System) (p : List String) : List String :=
  match h.entry? p with
  | some (.link target) => target
  | _ => p

/-- The program that a name without `/` stands for: the one in the first directory of the
search path that holds a program of that name. -/
def program? (h : System) (name : String) : Option (String → List String → ProgramRun) :=
  h.searchPath.findSome? fun dir =>
    match h.entry? (h.follow (dir ++ [name])) with
    | some (.program run) => some run
    | _ => none

/-- Whether every link of the host stands for a place of its own name. -/
def KeepsNames (h : System) : Prop :=
  ∀ p t, h.entry? p = some (.link t) → t.getLast? = p.getLast?

end System

/-! ## The standard host -/

/-- The directories of the standard host below the root, as component lists. -/
def directories : List (List String) :=
  [["boot"], ["dev"], ["etc"], ["home"], ["media"], ["mnt"], ["opt"],
   ["proc"], ["root"], ["run"], ["srv"], ["sys"], ["tmp"], ["usr"], ["var"],
   ["usr", "bin"], ["usr", "lib"], ["usr", "local"], ["usr", "local", "bin"],
   ["usr", "local", "sbin"], ["usr", "sbin"], ["usr", "share"], ["var", "log"], ["var", "tmp"]]

/-- The plain files of the standard host, as component lists. -/
def plainFiles : List (List String) :=
  [["etc", "passwd"], ["etc", "group"], ["etc", "shadow"], ["etc", "hosts"],
   ["etc", "hostname"], ["etc", "resolv.conf"], ["etc", "os-release"], ["dev", "null"],
   ["dev", "zero"]]

/-- What the place `p` below the root of the standard host holds, if anything. -/
def standardEntry? (p : List String) : Option Entry :=
  if p.isEmpty || directories.contains p then some .dir
  else if plainFiles.contains p then some (.file .empty)
  else
    match p with
    | ["bin"] | ["sbin"] | ["lib"] => some (.link ("/" :: "usr" :: p))
    | ["usr", "bin", name] => (toolNamed? name).map fun t => .program t.run
    | ["usr", "sbin", name] => (systemToolNamed? name).map fun t => .program t.run
    | _ => none

/-- The links of the standard host are `/bin`, `/sbin` and `/lib`, each to its namesake under
`/usr`. -/
theorem standardEntry?_eq_link {p t : List String} (h : standardEntry? p = some (.link t)) :
    ∃ name ∈ ["bin", "sbin", "lib"], p = [name] ∧ t = ["/", "usr", name] := by
  unfold standardEntry? at h
  split at h
  · cases h
  · split at h
    · cases h
    · -- neither a directory nor a plain file: one of the places named one by one
      split at h
      · exact ⟨"bin", by simp, rfl, by cases h; rfl⟩
      · exact ⟨"sbin", by simp, rfl, by cases h; rfl⟩
      · exact ⟨"lib", by simp, rfl, by cases h; rfl⟩
      · cases hn : toolNamed? _ <;> rw [hn] at h <;> cases h
      · cases hn : systemToolNamed? _ <;> rw [hn] at h <;> cases h
      · cases h

/-- The namesakes of the links under `/usr` are directories. -/
theorem standardEntry?_usr {name : String} (h : name ∈ ["bin", "sbin", "lib"]) :
    standardEntry? ["usr", name] = some .dir := by
  simp only [List.mem_cons, List.not_mem_nil, or_false] at h
  rcases h with rfl | rfl | rfl <;> rfl

/-- What a place of the standard host holds: nothing below the working directory. -/
def standardPlace? (p : List String) : Option Entry :=
  match p with
  | "/" :: rest => standardEntry? rest
  | _ => none

/-- The standard host holds nothing at a relative place. -/
theorem standardPlace?_cons {c : String} (hc : c ≠ "/") (rest : List String) :
    standardPlace? (c :: rest) = none := by
  unfold standardPlace?
  split
  · rename_i heq
    exact absurd (List.cons.inj heq).1 hc
  · rfl

theorem standardPlace?_eq_link {p t : List String} (h : standardPlace? p = some (.link t)) :
    ∃ name ∈ ["bin", "sbin", "lib"], p = ["/", name] ∧ t = ["/", "usr", name] := by
  unfold standardPlace? at h
  split at h
  · obtain ⟨name, hname, rfl, rfl⟩ := standardEntry?_eq_link h
    exact ⟨name, hname, rfl, rfl⟩
  · cases h

/-- The host the program is tested on. -/
def standard : System where
  entry? := standardPlace?
  searchPath := [["/", "usr", "sbin"], ["/", "usr", "bin"]]
  target_not_link p t hp t' := by
    obtain ⟨name, hname, -, rfl⟩ := standardPlace?_eq_link hp
    show standardEntry? ["usr", name] ≠ _
    rw [standardEntry?_usr hname]
    intro h
    cases h

/-- The links of the standard host keep their names. -/
theorem standard_keepsNames : standard.KeepsNames := by
  intro p t hp
  obtain ⟨name, -, rfl, rfl⟩ := standardPlace?_eq_link hp
  rfl

end Host

end ClusterSweep
