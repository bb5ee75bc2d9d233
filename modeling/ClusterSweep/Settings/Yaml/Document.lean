import ClusterSweep.Settings.Yaml.Parser
import ClusterSweep.Settings.Yaml.Scalar

/-!
# YAML documents as settings

The last stage of reading a YAML settings file.  The events of the first document are loaded
into a list of items, with every anchor numbered and every alias replaced by the number of the
anchor it names; an alias to an anchor not defined before it ends the document with a fault.
The items are then read as a table of settings:

* the top node must be a mapping, or empty, which is an empty table;
* a mapping key must be a scalar, whose text is the key whatever its tag;
* a node with a local tag `!name` is a table of one entry, `name` to the node read without its
  tag, so `!WARNING` alone is a table with the key `WARNING`;
* every other node is read as `Reading` says, and an alias as the node it names.

Reading stops with a fault when collections nest more than 128 deep or aliases are followed too
often.  A fault names the keys and positions leading to the node, the way `cluster.servers[0]`
names the first item of `servers` in `cluster`, and the node's position.  A stream with a
second document is rejected once the first has been read.
-/

namespace ClusterSweep.Settings.Yaml

/-- An item of a loaded document: an event with its anchor taken out and an alias replaced by
the number of its anchor. -/
inductive Item where
  /-- A reference to the node of the anchor with the given number. -/
  | alias (id : Nat)
  /-- A scalar with its resolved tag, text and style. -/
  | scalar (tag : Option String) (text : String) (style : ScalarStyle)
  /-- The start of a sequence with its resolved tag. -/
  | sequenceStart (tag : Option String)
  /-- The end of a sequence. -/
  | sequenceEnd
  /-- The start of a mapping with its resolved tag. -/
  | mappingStart (tag : Option String)
  /-- The end of a mapping. -/
  | mappingEnd
  /-- The whole of an empty stream. -/
  | void
  deriving Repr, Inhabited

/-- Why a stream cannot be read as settings. -/
inductive Failure where
  /-- The stream is not YAML. -/
  | malformed (f : Fault)
  /-- A node is rejected, with its position and the path leading to it once known. -/
  | message (text : String) (place : Option (Mark × String))
  /-- Collections nest too deep; the mark of the one too many. -/
  | recursionLimit (m : Mark)
  /-- Aliases are followed too often. -/
  | repetitionLimit
  /-- An alias names no anchor defined before it. -/
  | unknownAnchor (m : Mark)
  /-- The items end inside a node. -/
  | endOfStream
  /-- The stream has more than one document. -/
  | severalDocuments
  deriving Repr

/-- ` at ` and a mark, or nothing for the start. -/
def markSuffix (m : Mark) : String := if m.atStart then "" else " at " ++ m.text

/-- The text of a failure. -/
def Failure.text : Failure → String
  | .malformed f => f.message
  | .message t none => t
  | .message t (some (m, path)) => (if path == "." then "" else path ++ ": ") ++ t ++ markSuffix m
  | .recursionLimit m => "recursion limit exceeded" ++ markSuffix m
  | .repetitionLimit => "repetition limit exceeded"
  | .unknownAnchor m => "unknown anchor" ++ markSuffix m
  | .endOfStream => "EOF while parsing a value"
  | .severalDocuments =>
    "deserializing from YAML containing more than one document is not supported"

/-- A loaded document: its items with their marks, the item where each anchor's node starts
(the latest definition of a number first), and the fault that ended it early, if any. -/
structure Document where
  /-- The items. -/
  items : Array (Item × Mark) := #[]
  /-- Anchor numbers and the items where their nodes start. -/
  targets : List (Nat × Nat) := []
  /-- The fault that ended the document. -/
  error : Option Failure := none
  deriving Inhabited

/-- Numbers the anchor of a node about to be added: the number of distinct anchor names known
so far, a repeated name taking the new number. -/
def register (anchor : Option String) (names : List (String × Nat)) (doc : Document) :
    List (String × Nat) × Document :=
  match anchor with
  | none => (names, doc)
  | some a =>
    let id := names.length
    ((a, id) :: names.filter (·.1 != a), { doc with targets := (id, doc.items.size) :: doc.targets })

/-- Loads the events of one document from parser `p`, at most `n` events, after the anchors
`names` and items `doc` so far.  Gives the document, or nothing when the stream ends before a
document other than the first; and the parser to continue with after a document end. -/
def loadFor (first : Bool) : List (String × Nat) → Document → Nat → Parser →
    Option Document × Option Parser
  | _, doc, 0, _ => (some doc, none)
  | names, doc, n + 1, p =>
    match nextEvent.run p with
    | .error f => (some { doc with error := some (.malformed f) }, none)
    | .ok (none, _) => (if first then some doc else none, none)
    | .ok (some e, p) =>
      let push := fun (it : Item) (d : Document) => { d with items := d.items.push (it, e.start) }
      match e.kind with
      | .streamStart | .documentStart => loadFor first names doc n p
      | .streamEnd =>
        if first then (some (if doc.items.isEmpty then push .void doc else doc), none)
        else (none, none)
      | .documentEnd => (some doc, some p)
      | .alias name =>
        match names.lookup name with
        | some id => loadFor first names (push (.alias id) doc) n p
        | none => (some { doc with error := some (.unknownAnchor e.start) }, none)
      | .scalar anchor tag text style =>
        let (names, doc) := register anchor names doc
        loadFor first names (push (.scalar tag text style) doc) n p
      | .sequenceStart anchor tag =>
        let (names, doc) := register anchor names doc
        loadFor first names (push (.sequenceStart tag) doc) n p
      | .sequenceEnd => loadFor first names (push .sequenceEnd doc) n p
      | .mappingStart anchor tag =>
        let (names, doc) := register anchor names doc
        loadFor first names (push (.mappingStart tag) doc) n p
      | .mappingEnd => loadFor first names (push .mappingEnd doc) n p

/-- The keys and positions from the root to a node. -/
inductive Path where
  /-- The root. -/
  | root
  /-- An item of a sequence. -/
  | seq (parent : Path) (index : Nat)
  /-- The value of a key. -/
  | map (parent : Path) (key : String)
  /-- A node reached through an alias. -/
  | alias (parent : Path)
  /-- The value of a key that is not a scalar. -/
  | unknown (parent : Path)

/-- A path as messages show it: `.` for the root, keys joined by `.`, positions in brackets,
and `?` for the value of a key that is not a scalar. -/
def Path.text : Path → String
  | .root => "."
  | .seq p i => p.text ++ "[" ++ toString i ++ "]"
  | .map .root k => k
  | .map p k => p.text ++ "." ++ k
  | .alias p => p.text
  | .unknown .root => "?"
  | .unknown p => p.text ++ ".?"

/-- A walk over a document's items, counting the aliases followed. -/
abbrev Walk (α : Type) := StateT Nat (Except Failure) α

/-- A failure placed at a node: a rejection not yet placed gets the node's mark and path. -/
def Failure.place (m : Mark) (path : Path) : Failure → Failure
  | .message t none => .message t (some (m, path.text))
  | f => f

/-- Places the failures of `w` at a node. -/
def placed {α : Type} (m : Mark) (path : Path) (w : Walk α) : Walk α := fun n =>
  (w.run n).mapError (Failure.place m path)

/-- The item at `pos`, or the fault that ended the document early. -/
def Document.item (doc : Document) (pos : Nat) : Walk (Item × Mark) :=
  match doc.items[pos]? with
  | some it => pure it
  | none => throw (doc.error.getD .endOfStream)

/-- Follows an alias to the item where its anchor's node starts; following more aliases than a
hundred times the document's items is a failure. -/
def jump (doc : Document) (id : Nat) : Walk Nat := do
  let count ← get
  if doc.items.size * 100 < count + 1 then throw .repetitionLimit
  set (count + 1)
  match doc.targets.lookup id with
  | some i => pure i
  | none => throw .repetitionLimit

/-- The variant name a local tag gives a node: the tag without its `!`, or `!` for the tag
`!` alone.  A node whose tag is already taken as a variant name has none. -/
def variantTag (tag : Option String) (tagged : Bool) : Option String :=
  if tagged then none
  else
    match tag with
    | some t =>
      match t.toList with
      | '!' :: rest => some (if rest.isEmpty then t else String.ofList rest)
      | _ => none
    | none => none

mutual

/-- Reads the node at `pos` as a settings value, with `depth` more levels of collections
allowed; gives the value and the position after the node. -/
def nodeValue (doc : Document) (o : Option Origin) : Nat → Nat → Path → Bool → Nat →
    Walk (Value × Nat)
  | 0, _, _, _, _ => throw .repetitionLimit
  | fuel + 1, depth, path, tagged, pos => do
    let (item, mark) ← doc.item pos
    placed mark path <|
      match item with
      | .alias id => do
        let target ← jump doc id
        let (v, _) ← nodeValue doc o fuel depth (.alias path) false target
        pure (v, pos + 1)
      | .scalar tag text style =>
        match variantTag tag tagged with
        | some name => do
          let (v, next) ← nodeValue doc o fuel depth path true pos
          pure (Value.ofEntries o [(name, v)], next)
        | none =>
          match readScalar tag tagged text style with
          | .ok r => pure (.scalar o r.toScalar, pos + 1)
          | .error msg => throw (.message msg none)
      | .sequenceStart tag =>
        match variantTag tag tagged with
        | some name => do
          let (v, next) ← nodeValue doc o fuel depth path true pos
          pure (Value.ofEntries o [(name, v)], next)
        | none => do
          if depth == 0 then throw (.recursionLimit mark)
          let (items, next) ← seqItems doc o fuel (depth - 1) path 0 [] (pos + 1)
          pure (.list o items, next + 1)
      | .mappingStart tag =>
        match variantTag tag tagged with
        | some name => do
          let (v, next) ← nodeValue doc o fuel depth path true pos
          pure (Value.ofEntries o [(name, v)], next)
        | none => do
          if depth == 0 then throw (.recursionLimit mark)
          let (entries, next) ← mapEntries doc o fuel (depth - 1) path [] (pos + 1)
          pure (Value.ofEntries o entries, next + 1)
      | _ => pure (.scalar o .null, pos + 1)

/-- Reads the items of a sequence from `pos` up to its end, the one at `index` next. -/
def seqItems (doc : Document) (o : Option Origin) : Nat → Nat → Path → Nat → List Value → Nat →
    Walk (List Value × Nat)
  | 0, _, _, _, _, _ => throw .repetitionLimit
  | fuel + 1, depth, path, index, acc, pos => do
    let (item, _) ← doc.item pos
    match item with
    | .sequenceEnd | .void => pure (acc.reverse, pos)
    | _ =>
      let (v, next) ← nodeValue doc o fuel depth (.seq path index) false pos
      seqItems doc o fuel depth path (index + 1) (v :: acc) next

/-- Reads the entries of a mapping from `pos` up to its end. -/
def mapEntries (doc : Document) (o : Option Origin) : Nat → Nat → Path → List (String × Value) →
    Nat → Walk (List (String × Value) × Nat)
  | 0, _, _, _, _ => throw .repetitionLimit
  | fuel + 1, depth, path, acc, pos => do
    let (item, _) ← doc.item pos
    match item with
    | .mappingEnd | .void => pure (acc.reverse, pos)
    | _ =>
      let valuePath := match item with
        | .scalar _ text _ => Path.map path text
        | _ => Path.unknown path
      let (k, next) ← keyText doc fuel path pos
      let (v, next) ← nodeValue doc o fuel depth valuePath false next
      mapEntries doc o fuel depth path ((k, v) :: acc) next

/-- Reads the key at `pos`: the text of a scalar, also through an alias. -/
def keyText (doc : Document) : Nat → Path → Nat → Walk (String × Nat)
  | 0, _, _ => throw .repetitionLimit
  | fuel + 1, path, pos => do
    let (item, mark) ← doc.item pos
    placed mark path <|
      match item with
      | .scalar _ text _ => pure (text, pos + 1)
      | .alias id => do
        let target ← jump doc id
        let (t, _) ← keyText doc fuel (.alias path) target
        pure (t, pos + 1)
      | .sequenceStart _ => throw (.message "invalid type: sequence, expected a string" none)
      | .mappingStart _ => throw (.message "invalid type: map, expected a string" none)
      | _ => throw .endOfStream

end

/-- Reads the node at `pos` as the table of a whole document: a mapping, or nothing. -/
def tableAt (doc : Document) (o : Option Origin) : Nat → Path → Nat →
    Walk (List (String × Value))
  | 0, _, _ => throw .repetitionLimit
  | fuel + 1, path, pos => do
    let (item, mark) ← doc.item pos
    placed mark path <|
      match item with
      | .alias id => do
        let target ← jump doc id
        tableAt doc o fuel (.alias path) target
      | .mappingStart _ => do
        let (entries, _) ← mapEntries doc o fuel 127 path [] (pos + 1)
        pure entries
      | .void => pure []
      | .scalar tag text style =>
        if text.isEmpty && style == .plain then pure []
        else
          match readScalar tag false text style with
          | .ok r => throw (.message ("invalid type: " ++ r.unexpected ++ ", expected a map") none)
          | .error msg => throw (.message msg none)
      | .sequenceStart _ => throw (.message "invalid type: sequence, expected a map" none)
      | _ => throw .endOfStream

end ClusterSweep.Settings.Yaml
