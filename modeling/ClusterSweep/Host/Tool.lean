import ClusterSweep.Text.Quoted

/-!
# The host's tools

The programs of the host system that a command runner may start, told apart by what they do
with a runner's argument list: it starts with the long option `--servers`.

`echo` prints its arguments, `printf` prints its first argument and warns that it ignores the
others, `true` and `false` exit with `0` and `1`, and the shell rejects `--` as an option letter.
The other tools reject `--servers`: most as a long option they do not know, each with its own
exit status and its own way of pointing at its help; `du` rejects every long option it does not
know before it gives up, and `find` takes `--servers` for a test of its expression language
that it does not know.  A tool names itself in messages as it was named when started; a few
shorten that to its last component in the line that points at their help.
-/

namespace ClusterSweep

/-- What a finished program did: its exit status and what it wrote on its standard output and
its standard error. -/
structure ProgramRun where
  /-- The exit status. -/
  status : Nat
  /-- What it wrote on its standard output. -/
  stdout : String := ""
  /-- What it wrote on its standard error. -/
  stderr : String := ""
  deriving DecidableEq, Repr

/-- The standard output and the standard error that started programs share with the program
that started them, as written so far. -/
structure Console where
  /-- The standard output so far. -/
  out : String := ""
  /-- The standard error so far. -/
  err : String := ""
  deriving DecidableEq, Repr

/-- The console after a program has run on it. -/
def Console.record (c : Console) (r : ProgramRun) : Console :=
  { out := c.out ++ r.stdout, err := c.err ++ r.stderr }

namespace Host

/-- A program of the host system, told apart by what it does with a runner's arguments. -/
inductive Tool where
  /-- Prints its arguments separated by blanks, then a line break. -/
  | echo
  /-- Prints its first argument, which holds no `%` and no backslash, and warns that it
  ignores the others. -/
  | printf
  /-- Exits with `0`. -/
  | succeed
  /-- Exits with `1`. -/
  | fail
  /-- A POSIX shell: `--servers` starts with the option letter `-`, which it does not know. -/
  | shell
  /-- The pattern search: rejects `--servers` with a usage line and exit status `2`. -/
  | search
  /-- A tool that rejects `--servers` as a long option it does not know, with `status`. -/
  | strict (status : Nat)
  /-- The disk usage tool: rejects each long option it does not know, then exits with `1`. -/
  | usage
  /-- The stream editor: rejects `--servers` with its usage text and exit status `1`. -/
  | streamEditor
  /-- The file finder: takes `--servers` for an unknown test and exits with `1`. -/
  | finder
  /-- The compressor: rejects `--servers`, points at its help by its short name and exits with
  `1`. -/
  | compressor
  /-- A file comparison tool: rejects `--servers`, points at its help on a line of its own
  and exits with `2`. -/
  | comparer
  deriving DecidableEq, Repr

/-- The tools that reject an unknown long option with exit status `1`. -/
def failingOnOption : List String :=
  ["cat", "head", "tail", "wc", "sleep", "yes", "pwd", "date", "uname", "arch", "id", "whoami",
   "groups", "users", "who", "pinky", "logname", "hostid", "touch", "mkdir", "rm", "rmdir", "cp",
   "mv", "ln", "link", "unlink", "install", "chmod", "chown", "chgrp", "chcon", "mkfifo", "mknod",
   "truncate", "shred", "sync", "dd", "basename", "dirname", "pathchk", "seq", "factor",
   "numfmt", "tee", "tr", "cut", "paste", "join", "comm", "uniq", "tac", "nl", "fold", "fmt",
   "pr", "expand", "unexpand", "ptx", "tsort", "split", "csplit", "od", "base64", "base32",
   "basenc", "md5sum", "sha1sum", "sha224sum", "sha256sum", "sha384sum", "sha512sum", "b2sum",
   "cksum", "sum", "stat", "readlink", "realpath", "df", "dircolors", "mktemp", "nproc", "shuf",
   "xargs"]

/-- The tools that reject an unknown long option with exit status `2`. -/
def troubledOnOption : List String := ["ls", "dir", "vdir", "sort", "printenv"]

/-- The tools that run another program and reject an unknown long option of their own with exit
status `125`. -/
def cancelledOnOption : List String := ["env", "timeout", "nice", "nohup", "stdbuf"]

/-- The tool of `/usr/bin` with the given name. -/
def toolNamed? (name : String) : Option Tool :=
  match name with
  | "echo" => some .echo
  | "printf" => some .printf
  | "true" => some .succeed
  | "false" => some .fail
  | "sh" | "dash" => some .shell
  | "grep" => some .search
  | "du" => some .usage
  | "sed" => some .streamEditor
  | "find" => some .finder
  | "gzip" => some .compressor
  | "cmp" | "diff" | "diff3" | "sdiff" => some .comparer
  | _ =>
    if failingOnOption.contains name then some (.strict 1)
    else if troubledOnOption.contains name then some (.strict 2)
    else if cancelledOnOption.contains name then some (.strict 125)
    else none

/-- The tool of `/usr/sbin` with the given name: it holds only the tool that runs a program with
another root directory, which rejects an unknown long option of its own with exit status
`125`. -/
def systemToolNamed? (name : String) : Option Tool :=
  if name == "chroot" then some (.strict 125) else none

/-- The long options of an argument list, up to the argument `--` that ends the options. -/
def longOptions : List String → List String
  | [] => []
  | a :: rest =>
    if a == "--" then [] else if a.startsWith "--" then a :: longOptions rest else longOptions rest

/-- The last component of a program's name, as a tool that shortens its name shows it. -/
def shortName (argv0 : String) : String := ((argv0.splitOn "/").getLast?).getD argv0

/-- The two lines with which a tool rejects the unknown long option `option`. -/
def unknownOption (argv0 option : String) : String :=
  argv0 ++ ": unrecognized option '" ++ option ++ "'\nTry '" ++ argv0 ++
    " --help' for more information.\n"

/-- The usage line of the stream editor started as `argv0`, with the blank line after it; the
option table and the closing paragraphs that follow it are not modelled. -/
def streamEditorUsage (argv0 : String) : String :=
  "Usage: " ++ argv0 ++ " [OPTION]... " ++ Text.openBrace ++ "script-only-if-no-other-script" ++
    Text.closeBrace ++ " [input-file]...\n\n"

/-- What a tool started as `argv0` does with the arguments `args`. -/
def Tool.run (t : Tool) (argv0 : String) (args : List String) : ProgramRun :=
  let first := args.headD ""
  match t with
  | .echo => { status := 0, stdout := " ".intercalate args ++ "\n" }
  | .printf =>
    match args with
    | _ :: extra :: _ =>
      { status := 0, stdout := first,
        stderr := argv0 ++ ": warning: ignoring excess arguments, starting with '" ++ extra ++
          "'\n" }
    | _ => { status := 0, stdout := first }
  | .succeed => { status := 0 }
  | .fail => { status := 1 }
  | .shell => { status := 2, stderr := argv0 ++ ": 0: Illegal option --\n" }
  | .search =>
    let short := shortName argv0
    { status := 2,
      stderr := argv0 ++ ": unrecognized option '" ++ first ++ "'\nUsage: " ++ short ++
        " [OPTION]... PATTERNS [FILE]...\nTry '" ++ short ++ " --help' for more information.\n" }
  | .strict status => { status, stderr := unknownOption argv0 first }
  | .streamEditor =>
    { status := 1,
      stderr := argv0 ++ ": unrecognized option '" ++ first ++ "'\n" ++ streamEditorUsage argv0 }
  | .finder => { status := 1, stderr := argv0 ++ ": unknown predicate \x60" ++ first ++ "'\n" }
  | .compressor =>
    { status := 1,
      stderr := argv0 ++ ": unrecognized option '" ++ first ++ "'\nTry \x60" ++
        shortName argv0 ++ " --help' for more information.\n" }
  | .comparer =>
    { status := 2,
      stderr := argv0 ++ ": unrecognized option '" ++ first ++ "'\n" ++ argv0 ++ ": Try '" ++
        argv0 ++ " --help' for more information.\n" }
  | .usage =>
    { status := 1,
      stderr := String.join ((longOptions args).map fun o =>
          argv0 ++ ": unrecognized option '" ++ o ++ "'\n") ++
        "Try '" ++ argv0 ++ " --help' for more information.\n" }

end Host

end ClusterSweep
