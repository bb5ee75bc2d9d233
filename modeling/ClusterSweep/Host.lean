import ClusterSweep.Disk

/-!
# Starting programs

A command runner starts a program of the host system with the cluster arguments (`Host.start`).
A program named without a `/` is looked up in the directories of the host's search path
(`Host.System.program?`); on the standard host those are `/usr/sbin`, which holds `chroot`, and
`/usr/bin`, which holds the other tools (`Host.Tool`).  A name found in none of them is not
found, and one longer than a directory entry may be is too long.  A program named by a path is
looked up as the disk looks up any path, so on the standard host `/bin/..` is `/usr`.  Starting a
directory or a file is refused (`Permission denied`): files the program created and the host's
plain files are not executable.  A path through a missing directory is not found, and one
through a file, or a file named with a trailing `/`, is not a directory.  A program or argument
holding a zero character cannot be handed to the system at all.
-/

namespace ClusterSweep

namespace Host

/-- Why the program at the place `p` that `program` names cannot be started: a directory or a
file refuses, a file named with a trailing `/` is not a directory, and nothing is not found. -/
def refusal (disk : Disk) (program : String) (p : List String) : IoError :=
  match disk.find? p with
  | some (.file _) => if namesDirectory program then .notADirectory else .permissionDenied
  | some .dir => .permissionDenied
  | none => .notFound

/-- Starts `program` with the arguments `args`, a relative path naming a place on `disk`, and
gives what it did, or why it could not be started. -/
def start (disk : Disk) (program : String) (args : List String) :
    Except IoError ProgramRun :=
  if Disk.holdsZero program || args.any Disk.holdsZero then .error .nulByte
  else if !program.contains '/' then
    if Disk.nameMax < program.utf8ByteSize then .error .nameTooLong
    else
      match disk.host.program? program with
      | some run => .ok (run program args)
      | none => .error .notFound
  else do
    if Disk.pathMax ≤ program.utf8ByteSize then throw .nameTooLong
    let p ← disk.resolve (components program)
    match disk.host.entry? p with
    | some (.program run) =>
      if namesDirectory program then throw .notADirectory else pure (run program args)
    | _ => throw (refusal disk program p)

end Host

end ClusterSweep
