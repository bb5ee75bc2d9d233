import ClusterSweep.Settings.Yaml.Document

/-!
# YAML settings files

A settings file is a YAML stream of one document whose top node is a mapping.  Reading it goes
through the stages of the modules below: the characters are checked (`isStreamChar`), cut into
tokens (`Yaml.Scanner`), parsed into events (`Yaml.Parser`), loaded as one document and read as
a table (`Yaml.Document`), with plain scalars read as `Yaml.Scalar` says.  Whatever fails first
is the error, in the wording of the stage that found it:

    did not find expected key at line 3 column 3, while parsing a block mapping at line 2 column 3
    cluster.master_args: invalid value: string "", expected null at line 2 column 16
    deserializing from YAML containing more than one document is not supported

A character that may not appear in a stream at all fails the stream before anything is read.
The second document of a stream is looked at only once the first one has been read as a table,
and only as far as its first event.
-/

namespace ClusterSweep.Settings.Yaml

/-- Whether a character may appear in a stream: the tab, line feed and carriage return, and
every printable character other than the delete character, the surrogates and the two
non-characters at the end of the basic plane. -/
def isStreamChar (c : Char) : Bool :=
  let n := c.toNat
  n == 0x9 || n == 0xA || n == 0xD || (0x20 ≤ n && n ≤ 0x7E) || n == 0x85 ||
    (0xA0 ≤ n && n ≤ 0xD7FF) || (0xE000 ≤ n && n ≤ 0xFFFD) || (0x10000 ≤ n && n ≤ 0x10FFFF)

/-- The byte offset of the first character that may not appear in a stream, counting from
`offset`. -/
def forbiddenAt (offset : Nat) : List Char → Option Nat
  | [] => none
  | c :: cs => if isStreamChar c then forbiddenAt (offset + c.utf8Size) cs else some offset

/-- The items of the first document of a stream, and the parser after it if it ended with a
document end; a stream with a character that may not appear fails at once. -/
def firstDocument (text : String) : Document × Option Parser :=
  let (chars, offset) := match text.toList with
    | c :: rest => if c == byteOrderMark then (rest, 3) else (c :: rest, 0)
    | [] => ([], 0)
  match forbiddenAt offset chars with
  | some bad =>
    ({ items := #[], error := some (.malformed
        { problem := "control characters are not allowed", offset := bad }) }, none)
  | none =>
    let p := Parser.ofChars chars.toArray
    let (doc, rest) := loadFor true [] {} (8 * chars.length + 64) p
    (doc.getD {}, rest)

/-- Whether another document follows the first one. -/
def moreDocuments (rest : Option Parser) : Bool :=
  match rest with
  | none => false
  | some p => (loadFor false [] {} (8 * p.scanner.input.size + 64) p).1.isSome

/-- The table of settings of a YAML stream, its nodes attributed to `o`: the first document read
as a table, with no document after it. -/
def readFailure (text : String) (o : Option Origin) :
    Except Failure (List (String × Value)) := do
  let (doc, rest) := firstDocument text
  let entries ← (tableAt doc o (260 * doc.items.size + 1024) .root 0).run' 0
  if let some f := doc.error then throw f
  if moreDocuments rest then throw .severalDocuments
  pure (Value.sortEntries entries)

/-- The table of settings of a YAML stream, its nodes attributed to `o`, or the message of why
the stream is not one. -/
def readTable (text : String) (o : Option Origin) : Except String (List (String × Value)) :=
  (readFailure text o).mapError Failure.text

end ClusterSweep.Settings.Yaml
