import ClusterSweep.Host.Tree

/-!
# Disks

A disk is the part of a file system that a sweep reads and writes: a finite set of files and
directories named by their places, the paths without `.`, `..` and empty components.  A path is
followed component by component as the system does (`Disk.resolve`): empty components and `.`
are skipped, every component before the last must name an existing directory, and `..` goes to
the parent of the directory reached, so `a/../b` needs a directory `a` and then names `b`.  A
relative path starts at the working directory and an absolute one at the root, which always
exist.  A path ending in `/` names a directory.  A disk is the file system of its host
(`Disk.host`) with what the program created over it; a link of the host is followed wherever a
path passes through it or ends at it, so a file created at a link is created at its target.  A
component longer than 255 bytes is refused when it is looked up, and a whole path of 4096 bytes
or more before anything is looked up (`nameTooLong`); a path holding a zero character is
refused before that (`nulInName`).

The operations fail the way the operating system does (`IoError`):

* reading needs every directory on the way to exist (`notFound` otherwise) and to be a
  directory (`notADirectory`), and the file to exist; a directory opens but cannot be read
  (`isADirectory`);
* creating a file has the same needs of its parent, replaces a file and cannot replace a
  directory (`isADirectory`);
* creating a directory with its missing parents (`Disk.createDirAll`) accepts an existing
  directory, fails on a file in the way (`notADirectory`, or `alreadyExists` for the directory
  itself), and keeps the parents it made before it failed.
-/

namespace ClusterSweep

/-- Why a file operation fails. -/
inductive IoError where
  /-- A file or directory on the path does not exist. -/
  | notFound
  /-- A component used as a directory is a file. -/
  | notADirectory
  /-- A file operation met a directory. -/
  | isADirectory
  /-- The file to create exists already. -/
  | alreadyExists
  /-- The file may not be used this way. -/
  | permissionDenied
  /-- A text file holds bytes that are not UTF-8. -/
  | invalidUtf8
  /-- A program or argument holds a zero character, which the system cannot be handed. -/
  | nulByte
  /-- A path holds a zero character, which no file name can hold. -/
  | nulInName
  /-- A component of a path, or the whole path, is longer than the system allows. -/
  | nameTooLong
  deriving DecidableEq, Repr

/-- The operating system's text of a file error. -/
def IoError.message : IoError → String
  | .notFound => "No such file or directory (os error 2)"
  | .notADirectory => "Not a directory (os error 20)"
  | .isADirectory => "Is a directory (os error 21)"
  | .alreadyExists => "File exists (os error 17)"
  | .permissionDenied => "Permission denied (os error 13)"
  | .invalidUtf8 => "stream did not contain valid UTF-8"
  | .nulByte => "nul byte found in provided data"
  | .nulInName => "file name contained an unexpected NUL byte"
  | .nameTooLong => "File name too long (os error 36)"

/-- What a path names on a disk. -/
inductive Node where
  /-- A file with its bytes. -/
  | file (data : ByteArray)
  /-- A directory. -/
  | dir

/-- The files and directories that a program created, each under its normal path, over the file
system of the host it runs on; the working directory and the root are implicit. -/
structure Disk where
  /-- Every file and directory the program created, with its normal path. -/
  nodes : List (List String × Node) := []
  /-- The host, whose file system lies below what the program created. -/
  host : Host.System := Host.standard

/-- The components of a path as the system reads it: an absolute path starts with the component
`/`, empty components and `.` are skipped, and `..` is kept. -/
def components (p : String) : List String :=
  (if p.startsWith "/" then ["/"] else []) ++
    ((p.toList.splitOn '/').map String.ofList).filter fun c => c != "" && c != "."

/-- Whether a path says by its form that it names a directory: it ends in `/` or `/.`. -/
def namesDirectory (p : String) : Bool := p.endsWith "/" || p.endsWith "/."

/-- The parent of a place.  The root is its own parent; above the working directory lie places
the disk knows nothing of but that they are directories. -/
def up (p : List String) : List String :=
  match p with
  | ["/"] => ["/"]
  | _ => if p.all (· == "..") then p ++ [".."] else p.dropLast

/-- The bytes that a program of the host reads as.  The model keeps no image of the host's
executables, only that they are not UTF-8 text, which is all that reading one as text shows. -/
def programBytes : ByteArray := ⟨#[0x7F, 0x45, 0x4C, 0x46, 0xFF]⟩

/-- A place of the host as the disk sees it: a directory, or a file, whose bytes are those of a
program for a program.  A link holds nothing of its own: a path goes on from its target. -/
def Node.ofHost? : Host.Entry → Option Node
  | .dir => some .dir
  | .file data => some (.file data)
  | .program _ => some (.file programBytes)
  | .link _ => none

namespace Disk

/-- The longest name of one directory entry, in bytes. -/
def nameMax : Nat := 255

/-- The length in bytes from which a whole path is too long. -/
def pathMax : Nat := 4096

/-- What a place names: the working directory, the root and the directories above the working
directory are directories; a place that the program did not create is what the host holds
there. -/
def find? (d : Disk) (p : List String) : Option Node :=
  if p == ["/"] || p.all (· == "..") then some .dir
  else
    match d.nodes.find? (·.1 == p) with
    | some (_, n) => some n
    | none => (d.host.entry? p).bind Node.ofHost?

/-- The place of the entry `c` of the directory at `cur` on the host `h`: a link stands for its
target. -/
def child (h : Host.System) (cur : List String) (c : String) : List String :=
  h.follow (cur ++ [c])

/-- The place that the components `cs` lead to from the directory `cur`: each component but the
last must name an existing directory, `..` goes to the parent, and a name longer than
`nameMax` bytes is refused when it is looked up. -/
def walk (d : Disk) (cur : List String) : List String → Except IoError (List String)
  | [] => .ok cur
  | [c] =>
    if c == ".." then .ok (up cur)
    else if nameMax < c.utf8ByteSize then .error .nameTooLong
    else .ok (child d.host cur c)
  | c :: rest =>
    if c == ".." then d.walk (up cur) rest
    else if nameMax < c.utf8ByteSize then .error .nameTooLong
    else
      match d.find? (child d.host cur c) with
      | some .dir => d.walk (child d.host cur c) rest
      | some (.file _) => .error .notADirectory
      | none => .error .notFound

/-- The place that a path's components lead to, from the root or the working directory. -/
def resolve (d : Disk) (cs : List String) : Except IoError (List String) :=
  match cs with
  | "/" :: rest => d.walk ["/"] rest
  | _ => d.walk [] cs

/-- The disk with place `p` naming `n`, replacing what it named before. -/
def put (d : Disk) (p : List String) (n : Node) : Disk :=
  { d with nodes := (d.nodes.filter (·.1 != p)) ++ [(p, n)] }

/-- Whether the components `cs` lead to a directory. -/
def isDir (d : Disk) (cs : List String) : Bool :=
  match d.resolve cs with
  | .ok p => (d.find? p matches some .dir)
  | .error _ => false

/-- Whether a path holds the zero character, which the system refuses before looking at it. -/
def holdsZero (path : String) : Bool := path.toList.contains (Char.ofNat 0)

/-- Refuses a path that holds the zero character or is `pathMax` bytes long or longer, before
anything is looked up. -/
def checkPath (path : String) : Except IoError Unit :=
  if holdsZero path then .error .nulInName
  else if pathMax ≤ path.utf8ByteSize then .error .nameTooLong
  else .ok ()

/-- The bytes of the file at `path`. -/
def readFile (d : Disk) (path : String) : Except IoError ByteArray := do
  checkPath path
  if path.isEmpty then throw .notFound
  let p ← d.resolve (components path)
  match d.find? p with
  | some (.file data) => if namesDirectory path then throw .notADirectory else pure data
  | some .dir => throw .isADirectory
  | none => throw .notFound

/-- Creates or replaces the file at `path`. -/
def createFile (d : Disk) (path : String) (data : ByteArray) : Except IoError Disk := do
  checkPath path
  if path.isEmpty then throw .notFound
  let p ← d.resolve (components path)
  match d.find? p with
  | some .dir => throw .isADirectory
  | some (.file _) => if namesDirectory path then throw .notADirectory else pure (d.put p (.file data))
  | none => if namesDirectory path then throw .isADirectory else pure (d.put p (.file data))

/-- Creates the one directory that the components `cs` lead to, whose parent exists. -/
def makeDir (d : Disk) (cs : List String) : Except IoError Disk := do
  let p ← d.resolve cs
  match d.find? p with
  | some _ => throw .alreadyExists
  | none => pure (d.put p .dir)

/-- Creates the directory of the components `cs` and its missing parents, `n` components deep
at most: a directory is made once its parent (the components but the last) is made, and one
that exists is kept.  Gives the disk as the attempt leaves it, with the parents made before a
failure, and the failure if there is one. -/
def createDirsUpTo (d : Disk) (cs : List String) : Nat → Disk × Option IoError
  | 0 => (d, none)
  | n + 1 =>
    if cs.isEmpty then (d, none)
    else
      match d.makeDir cs with
      | .ok d' => (d', none)
      | .error .notFound =>
        match d.createDirsUpTo cs.dropLast n with
        | (d', some e) => (d', some e)
        | (d', none) =>
          match d'.makeDir cs with
          | .ok d'' => (d'', none)
          | .error e => (d', if d'.isDir cs then none else some e)
      | .error e => (d, if d.isDir cs then none else some e)

/-- Creates the directory at `path` with its missing parents; an existing directory is kept.
Gives the disk as the attempt leaves it and the failure if there is one. -/
def createDirAll (d : Disk) (path : String) : Disk × Option IoError :=
  let cs := components path
  if cs.isEmpty then (d, none)
  else
    match checkPath path with
    | .error e => (d, some e)
    | .ok () => d.createDirsUpTo cs cs.length

/-- The files and directories below the working directory, a directory's path ending in
`/`. -/
def listing (d : Disk) : List (String × Option ByteArray) :=
  (d.nodes.filter fun (p, _) => p.head? != some "/" && p.head? != some "..").map fun (p, n) =>
    match n with
    | .file data => ("/".intercalate p, some data)
    | .dir => ("/".intercalate p ++ "/", none)

/-- A disk holding the given files, their parent directories created as needed; a path paired
with `none` is a directory. -/
def ofFiles (files : List (String × Option ByteArray)) : Disk :=
  files.foldl (fun d (path, content) =>
    let parent := (components path).dropLast
    let d := (d.createDirsUpTo parent parent.length).1
    match content with
    | some data => (d.createFile path data).toOption.getD d
    | none => (d.createDirAll path).1) {}

end Disk

end ClusterSweep
