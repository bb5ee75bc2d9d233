import ClusterSweep.Duration
import ClusterSweep.Settings.Error

/-!
# Decoding settings trees

A decoder reads a typed setting from a settings tree or rejects it with a `DecodeError`.  The
decoders of this module follow one discipline: every decoder of a value passes its own
rejections, and those of the values inside it that no nearer value has attributed yet, to the
value's source (`attributed`), and a record or list puts the key or position of an inner value
in front of the inner value's path.  So a rejected number in a list reports the list position,
the keys above it, and the source of the number itself.

Settings trees come in two dialects (`Dialect`), which differ in a few acceptance rules:
a whole JSON document names an enumeration variant by a text or by a table of one entry, while
layered settings also accept the variant's position and a table of any size, whose first entry
counts.
-/

namespace ClusterSweep.Settings

/-- Where a settings tree came from, which decides a few acceptance rules. -/
inductive Dialect where
  /-- A whole JSON document. -/
  | document
  /-- A tree layered from defaults, a YAML file, environment variables and options. -/
  | layered
  deriving DecidableEq, Repr

/-- A reader of typed settings. -/
abbrev Decoder (α : Type) := Value → Except DecodeError α

/-- A rejection for the given reason, not yet placed or attributed. -/
def reject {α : Type} (p : Problem) : Except DecodeError α := .error { problem := p }

/-- The rejections of `r` attributed to the source of `v`. -/
def attributed {α : Type} (v : Value) (r : Except DecodeError α) : Except DecodeError α :=
  r.mapError (DecodeError.within v.origin)

/-- The rejections of `r` placed below key `k`. -/
def below {α : Type} (k : String) (r : Except DecodeError α) : Except DecodeError α :=
  r.mapError (DecodeError.under k)

/-- Rejects `v` as a value of the wrong kind. -/
def wrongKind {α : Type} (v : Value) (expected : String) : Except DecodeError α :=
  reject (.invalidType (Found.ofValue v) expected)

/-- An unsigned integer below `2 ^ bits`, described as `expected`. -/
def unsignedBelow (bits : Nat) (expected : String) : Decoder Nat := fun v =>
  attributed v <| match v with
    | .scalar _ (.unsigned n) =>
      if Nat.pow 2 64 ≤ n then wrongKind v expected
      else if n < Nat.pow 2 bits then pure n
      else reject (.invalidValue (Found.ofScalar (.unsigned n)) expected)
    | .scalar _ (.signed i) =>
      if i < -(Nat.pow 2 63 : Int) then wrongKind v expected
      else if 0 ≤ i && i < Nat.pow 2 bits then pure i.toNat
      else reject (.invalidValue (.signed i) expected)
    | v => wrongKind v expected

/-- A 32-bit unsigned integer. -/
def u32 : Decoder Nat := unsignedBelow 32 "u32"

/-- A 64-bit unsigned integer. -/
def u64 : Decoder Nat := unsignedBelow 64 "u64"

/-- A 32-bit unsigned integer other than zero. -/
def nonzeroU32 : Decoder Nat := fun v =>
  attributed v <| match v with
    | .scalar _ (.unsigned n) =>
      if Nat.pow 2 64 ≤ n then wrongKind v "a nonzero u32"
      else if 0 < n && n < Nat.pow 2 32 then pure n
      else reject (.invalidValue (Found.ofScalar (.unsigned n)) "a nonzero u32")
    | .scalar _ (.signed i) =>
      if i < -(Nat.pow 2 63 : Int) then wrongKind v "a nonzero u32"
      else if 0 < i && i < Nat.pow 2 32 then pure i.toNat
      else reject (.invalidValue (.signed i) "a nonzero u32")
    | v => wrongKind v "a nonzero u32"

/-- A truth value. -/
def bool : Decoder Bool := fun v =>
  attributed v <| match v with
    | .scalar _ (.bool b) => pure b
    | v => wrongKind v "a boolean"

/-- A text, described as `expected` when the value is not one. -/
def textAs (expected : String) : Decoder String := fun v =>
  attributed v <| match v with
    | .scalar _ (.str s) => pure s
    | v => wrongKind v expected

/-- A text. -/
def text : Decoder String := textAs "a string"

/-- A file system path. -/
def path : Decoder String := textAs "path string"

/-- A duration written in units, such as `1h 30m`. -/
def duration : Decoder Duration := fun v =>
  attributed v <| match v with
    | .scalar _ (.str s) =>
      match Duration.parse s with
      | .ok d => pure d
      | .error .invalid => reject (.invalidValue (.str s) "a duration")
      | .error .secondsOverflow => reject (.stop ⟨"overflow in Duration::new", Site.durationNew⟩)
    | v => wrongKind v "a duration"

/-- An optional setting: the empty value is `none`. -/
def optional {α : Type} (d : Decoder α) : Decoder (Option α) := fun v =>
  attributed v <| match v with
    | .scalar _ .null => pure none
    | v => some <$> d v

/-- Decodes the items of a list, each placed at its position. -/
def listItems {α : Type} (d : Decoder α) (items : List Value) : Except DecodeError (List α) :=
  (items.zipIdx.mapM fun (x, i) => below (toString i) (d x))

/-- A list of settings. -/
def list {α : Type} (d : Decoder α) : Decoder (List α) := fun v =>
  attributed v <| match v with
    | .list _ items => listItems d items
    | v => wrongKind v "a sequence"

/-- One variant name of an enumeration without content: a text, a table of one entry whose
value is empty, and in layered settings also a table whose first entry counts. -/
def variant {α : Type} (dialect : Dialect) (enumName : String) (names : List (String × α)) :
    Decoder α := fun v =>
  let byName := fun (s : String) =>
    match names.lookup s with
    | some a => pure a
    | none => reject (.unknownVariant s (names.map (·.1)))
  let unitContent := fun (x : Value) (a : α) =>
    attributed x <| match x with
      | .scalar _ .null => pure a
      | x => wrongKind x "unit"
  attributed v <| match dialect, v with
    | _, .scalar _ (.str s) => byName s
    | .document, .table _ [(k, x)] => do
      let a ← byName k
      unitContent x a
    | .document, .table _ _ => reject (.invalidValue .map "map with a single key")
    | .document, v => wrongKind v "string or map"
    | .layered, .table _ ((k, x) :: _) => do
      let a ← byName k
      below k (unitContent x a)
    | .layered, .table _ [] => reject (.invalidType .map "enum")
    | .layered, v => wrongKind v ("enum " ++ enumName)

/-- How one field of a record is read into the record. -/
structure Field (α : Type) where
  /-- The key of the field. -/
  name : String
  /-- Reads the field's value into the record. -/
  update : Value → α → Except DecodeError α

/-- Reads the entries of a table into a record, in the table's key order; keys that are no
field are ignored. -/
def readEntries {α : Type} (fields : List (Field α)) (init : α) (entries : List (String × Value)) :
    Except DecodeError α :=
  let step := fun (acc : α) (entry : String × Value) =>
    match fields.find? (·.name == entry.1) with
    | some f => below entry.1 (f.update entry.2 acc)
    | none => pure acc
  entries.foldlM step init

/-- Reads the items of a list into a record, field by field in declaration order. -/
def readItems {α : Type} (fields : List (Field α)) (init : α) (items : List Value) :
    Except DecodeError α :=
  let step := fun (acc : α) (item : Field α × Value × Nat) =>
    below (toString item.2.2) (item.1.update item.2.1 acc)
  (fields.zip items.zipIdx).foldlM step init

/-- A record whose every field has a default: from a table, or from a list giving the fields in
order.  A JSON document rejects a list longer than the record. -/
def record {α : Type} (dialect : Dialect) (recordName : String) (init : α)
    (fields : List (Field α)) : Decoder α := fun v =>
  attributed v <| match v with
    | .table _ entries => readEntries fields init entries
    | .list _ items => do
      let r ← readItems fields init items
      if dialect = .document && fields.length < items.length then
        reject (.invalidLength items.length "fewer elements in array")
      else pure r
    | v => wrongKind v ("struct " ++ recordName)

end ClusterSweep.Settings
