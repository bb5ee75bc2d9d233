import ClusterSweep.Binary64.Basic

/-!
# Settings trees

Settings arrive as trees of scalars, lists and tables, whichever source they come from: a JSON
document, a YAML file, `PS__` environment variables or command-line options.  A tree remembers
which source each of its nodes came from (`Origin`), so that a rejected value can be reported
with its source.

A table keeps its entries sorted by key, each key once (`Value.table` builds one from any list,
a later entry winning).  Layering one tree over another (`Value.merge`) merges two tables key by
key and otherwise takes the upper value whole, so a list from an upper layer replaces a lower
layer's list rather than extending it.  A merged table reports the origin of the upper table.
-/

namespace ClusterSweep.Settings

/-- A source of settings. -/
inductive Origin where
  /-- The built-in defaults. -/
  | defaults
  /-- A YAML file, named by its path relative to the working directory. -/
  | file (path : String)
  /-- Environment variables with the given prefix. -/
  | environment (varPrefix : String)
  /-- Options on the command line. -/
  | commandLine
  deriving DecidableEq, Repr

/-- A leaf of a settings tree. -/
inductive Scalar where
  /-- No value: JSON `null`, YAML `~`. -/
  | null
  /-- A truth value. -/
  | bool (b : Bool)
  /-- A non-negative integer. -/
  | unsigned (n : Nat)
  /-- An integer read as signed; a source that reads every integer as unsigned when it can
  gives this only for negative ones. -/
  | signed (i : Int)
  /-- A floating-point number. -/
  | float (x : Binary64)
  /-- A text. -/
  | str (s : String)
  deriving DecidableEq, Repr

/-- A settings tree; every node carries the source it came from, if known. -/
inductive Value where
  /-- A leaf. -/
  | scalar (origin : Option Origin) (s : Scalar)
  /-- A list of values. -/
  | list (origin : Option Origin) (items : List Value)
  /-- A table of values, sorted by key, each key once. -/
  | table (origin : Option Origin) (entries : List (String × Value))
  deriving Repr

namespace Value

instance : Inhabited Value := ⟨.scalar none .null⟩

/-- The source of a node. -/
def origin : Value → Option Origin
  | .scalar o _ => o
  | .list o _ => o
  | .table o _ => o

/-- Inserts an entry into a list sorted by key, replacing an entry of the same key. -/
def insertEntry (k : String) (v : Value) : List (String × Value) → List (String × Value)
  | [] => [(k, v)]
  | (k', v') :: rest =>
    if k < k' then (k, v) :: (k', v') :: rest
    else if k = k' then (k, v) :: rest
    else (k', v') :: insertEntry k v rest

/-- The entries of a table sorted by key, a later entry of a key replacing an earlier one. -/
def sortEntries (entries : List (String × Value)) : List (String × Value) :=
  entries.foldl (fun acc (k, v) => insertEntry k v acc) []

/-- A table of the given entries. -/
def ofEntries (o : Option Origin) (entries : List (String × Value)) : Value :=
  .table o (sortEntries entries)

mutual

/-- Layers `upper` over `lower`: two tables merge key by key, anything else is replaced. -/
def merge : Value → Value → Value
  | .table _ a, .table o b => .table o (mergeEntries a b)
  | _, v => v
termination_by lower upper => sizeOf lower + sizeOf upper

/-- Merges two key-sorted entry lists, the second one's values layered over the first's. -/
def mergeEntries : List (String × Value) → List (String × Value) → List (String × Value)
  | [], b => b
  | a, [] => a
  | (ka, va) :: ra, (kb, vb) :: rb =>
    if ka < kb then (ka, va) :: mergeEntries ra ((kb, vb) :: rb)
    else if kb < ka then (kb, vb) :: mergeEntries ((ka, va) :: ra) rb
    else (ka, merge va vb) :: mergeEntries ra rb
termination_by a b => sizeOf a + sizeOf b

end

/-- The value of key `k` in a table. -/
def get? (v : Value) (k : String) : Option Value :=
  match v with
  | .table _ entries => entries.lookup k
  | _ => none

end Value

end ClusterSweep.Settings
