/-!
# YAML tokens

The first stage of reading a YAML stream cuts its characters into tokens: stream and document
markers, directives, the indicators of block and flow collections, keys and values, anchors,
aliases, tags and scalars in their five styles.

Block structure is read from indentation.  The scanner keeps a stack of indentation columns; a
block collection opens (`blockSequenceStart`, `blockMappingStart`) when an entry or key starts
right of the current column, and every block that a line starts left of is closed
(`blockEnd`).  A plain or quoted scalar, an alias, an anchor, a tag or a flow collection may
turn out to be a key once a `:` follows it on the same line: such a place is a simple key, kept
per flow level until the `:` comes (and a `key` token is inserted before it) or the line ends.
A simple key that starts a line at the block's column must be one, so a line `a` inside a
mapping fails with `could not find expected ':'` when the line ends.

Tokens are produced on demand: `peekToken` scans until the next token can no longer become part
of a key, so a fault further on in the stream is found only when reading gets that far.  A
fault names the problem and where it was found, and for most faults the construct being read
and where it started.  Positions count bytes, lines and columns (in characters) from zero; a
stream that does not end with a line break ends on the next line.
-/

namespace ClusterSweep.Settings.Yaml

/-- A position in a stream: the bytes of its UTF-8 text before it, and its line and column in
characters, all counted from zero. -/
structure Mark where
  /-- The bytes before the position. -/
  index : Nat := 0
  /-- The line. -/
  line : Nat := 0
  /-- The column. -/
  column : Nat := 0
  deriving DecidableEq, Repr, Inhabited

/-- Whether a mark is on the first column of the first line, which messages leave unnamed. -/
def Mark.atStart (m : Mark) : Bool := m.line == 0 && m.column == 0

/-- A mark as messages name it, with lines and columns counted from one. -/
def Mark.text (m : Mark) : String :=
  "line " ++ toString (m.line + 1) ++ " column " ++ toString (m.column + 1)

/-- Why a stream is not YAML: the problem and where it was found, the byte offset of a
character that may not appear in a stream at all, and the construct being read together with
where it started. -/
structure Fault where
  /-- What was found or missed. -/
  problem : String
  /-- Where it was found. -/
  mark : Mark := {}
  /-- The byte offset of a forbidden character. -/
  offset : Nat := 0
  /-- The construct being read and where it started. -/
  context : Option (String × Mark) := none
  deriving Repr

/-- The text of a fault: the problem and its mark, or for a forbidden character its byte
offset; then the construct and its mark, unless that is the start or the problem's mark. -/
def Fault.message (f : Fault) : String :=
  let head := f.problem ++
    (if !f.mark.atStart then " at " ++ f.mark.text
     else if f.offset != 0 then " at position " ++ toString f.offset else "")
  match f.context with
  | none => head
  | some (c, m) =>
    let same := m.line == f.mark.line && m.column == f.mark.column
    head ++ ", " ++ c ++ (if !m.atStart && !same then " at " ++ m.text else "")

/-! ## Characters -/

/-- The character that stands for the end of the stream. -/
def endChar : Char := Char.ofNat 0

/-- The byte order mark, skipped at the start of a line. -/
def byteOrderMark : Char := Char.ofNat 0xFEFF

/-- Whether a character breaks a line: carriage return, line feed, next line, line separator or
paragraph separator. -/
def isBreak (c : Char) : Bool :=
  c == '\r' || c == '\n' || c.toNat == 0x85 || c.toNat == 0x2028 || c.toNat == 0x2029

/-- Whether a character is a space or a tab. -/
def isBlank (c : Char) : Bool := c == ' ' || c == '\t'

/-- Whether a character breaks a line or ends the stream. -/
def isBreakz (c : Char) : Bool := isBreak c || c == endChar

/-- Whether a character is a blank, breaks a line or ends the stream. -/
def isBlankz (c : Char) : Bool := isBlank c || isBreakz c

/-- Whether a character may stand in a directive name, an anchor or a tag handle: an ASCII letter
or digit, `_` or `-`. -/
def isWordChar (c : Char) : Bool := c.isAlphanum || c == '_' || c == '-'

/-- Whether a character is an ASCII hexadecimal digit. -/
def isHexDigit (c : Char) : Bool := c.isDigit || ('a' ≤ c && c ≤ 'f') || ('A' ≤ c && c ≤ 'F')

/-- The value of an ASCII hexadecimal digit. -/
def hexValue (c : Char) : Nat :=
  if c.isDigit then c.toNat - 48 else if 'a' ≤ c && c ≤ 'f' then c.toNat - 87 else c.toNat - 55

/-- The grave accent, which cannot start a plain scalar. -/
def graveAccent : Char := Char.ofNat 96

/-- The left curly bracket, which opens a flow mapping. -/
def openCurly : Char := Char.ofNat 123

/-- The right curly bracket, which closes a flow mapping. -/
def closeCurly : Char := Char.ofNat 125

/-- Whether a character is one of the flow indicators `,`, `[`, `]` and the curly brackets. -/
def isFlowIndicator (c : Char) : Bool :=
  c == ',' || c == '[' || c == ']' || c == openCurly || c == closeCurly

/-- Whether a character may stand in a tag: a word character or one of `;/?:@&=+$.%!~*'()`,
and inside `!<…>` also `,`, `[` and `]`. -/
def isUriChar (verbatim : Bool) (c : Char) : Bool :=
  isWordChar c || ";/?:@&=+$.%!~*'()".contains c || (verbatim && ",[]".contains c)

/-! ## Tokens -/

/-- How a scalar is written. -/
inductive ScalarStyle where
  /-- Without quotes. -/
  | plain
  /-- Between single quotes. -/
  | singleQuoted
  /-- Between double quotes, with escapes. -/
  | doubleQuoted
  /-- A block scalar after `|`, keeping line breaks. -/
  | literal
  /-- A block scalar after `>`, folding line breaks. -/
  | folded
  deriving DecidableEq, Repr, Inhabited

/-- What a token is. -/
inductive TokenKind where
  /-- The start of the stream. -/
  | streamStart
  /-- The end of the stream. -/
  | streamEnd
  /-- `%YAML major.minor`. -/
  | versionDirective (major minor : Nat)
  /-- `%TAG handle prefix`. -/
  | tagDirective (handle pfx : String)
  /-- `---`. -/
  | documentStart
  /-- `...`. -/
  | documentEnd
  /-- The start of a block sequence, found from indentation. -/
  | blockSequenceStart
  /-- The start of a block mapping, found from indentation. -/
  | blockMappingStart
  /-- The end of a block collection, found from indentation. -/
  | blockEnd
  /-- `[`. -/
  | flowSequenceStart
  /-- `]`. -/
  | flowSequenceEnd
  /-- `{`. -/
  | flowMappingStart
  /-- `}`. -/
  | flowMappingEnd
  /-- `-` before a block sequence entry. -/
  | blockEntry
  /-- `,`. -/
  | flowEntry
  /-- `?`, or the place of a simple key. -/
  | key
  /-- `:`. -/
  | value
  /-- `*name`. -/
  | alias (name : String)
  /-- `&name`. -/
  | anchor (name : String)
  /-- A tag: its handle and its suffix. -/
  | tag (handle suffix : String)
  /-- A scalar: its text after escapes and folding, and its style. -/
  | scalar (text : String) (style : ScalarStyle)
  deriving Repr, Inhabited

/-- A token and where it starts and ends. -/
structure Token where
  /-- What the token is. -/
  kind : TokenKind
  /-- Where it starts. -/
  start : Mark
  /-- Where it ends. -/
  stop : Mark
  deriving Repr, Inhabited

/-! ## The scanner -/

/-- A place that may start a simple key. -/
structure SimpleKey where
  /-- Whether the place may still turn out to be a key. -/
  possible : Bool := false
  /-- Whether it must be a key: it starts a line at the column of its block. -/
  required : Bool := false
  /-- The number of the token it starts, counting every token of the stream. -/
  tokenNumber : Nat := 0
  /-- Where it starts. -/
  mark : Mark := {}
  deriving Inhabited

/-- The state of the scanner. -/
structure Scanner where
  /-- The characters of the stream. -/
  input : Array Char
  /-- The position of the next character in `input`. -/
  pos : Nat := 0
  /-- The mark of the next character. -/
  mark : Mark := {}
  /-- Tokens scanned and not yet taken. -/
  queue : List Token := []
  /-- The number of tokens taken. -/
  parsed : Nat := 0
  /-- Whether the first queued token is final. -/
  available : Bool := false
  /-- Whether the stream start has been produced. -/
  started : Bool := false
  /-- The depth of flow collections. -/
  flowLevel : Nat := 0
  /-- The column of the innermost block, `-1` outside every block. -/
  indent : Int := -1
  /-- The columns of the enclosing blocks, innermost first. -/
  indents : List Int := []
  /-- Whether a simple key may start here. -/
  keyAllowed : Bool := false
  /-- The possible simple key of every flow level, innermost first. -/
  keys : List SimpleKey := []

/-- The character `k` places after the next one, or the end character past the stream. -/
def Scanner.peek (s : Scanner) (k : Nat) : Char := s.input.getD (s.pos + k) endChar

/-- A bound on the steps of a loop that reads one character per step. -/
def Scanner.room (s : Scanner) : Nat := s.input.size - s.pos + 3

/-- Whether the scanner stands at a document marker `---` or `...` at the start of a line. -/
def Scanner.atDocumentMarker (s : Scanner) : Bool :=
  s.mark.column == 0 &&
    ((s.peek 0 == '-' && s.peek 1 == '-' && s.peek 2 == '-') ||
      (s.peek 0 == '.' && s.peek 1 == '.' && s.peek 2 == '.')) &&
    isBlankz (s.peek 3)

/-- A scanning step, which may find a fault. -/
abbrev Scan (α : Type) := StateT Scanner (Except Fault) α

/-- Fails with `problem` at the current mark, while reading `context` started at `start`. -/
def fail {α : Type} (context : String) (start : Mark) (problem : String) : Scan α := do
  throw { problem, mark := (← get).mark, context := some (context, start) }

/-- Fails with `problem` at the current mark. -/
def failHere {α : Type} (problem : String) : Scan α := do
  throw { problem, mark := (← get).mark }

/-- Moves past one character that does not break a line. -/
def skip : Scan Unit := modify fun s =>
  { s with pos := s.pos + 1, mark := { s.mark with index := s.mark.index + (s.peek 0).utf8Size,
                                                     column := s.mark.column + 1 } }

/-- Moves past a line break; a carriage return and line feed count as one. -/
def skipLine : Scan Unit := modify fun s =>
  if s.peek 0 == '\r' && s.peek 1 == '\n' then
    { s with pos := s.pos + 2, mark := ⟨s.mark.index + 2, s.mark.line + 1, 0⟩ }
  else if isBreak (s.peek 0) then
    { s with pos := s.pos + 1, mark := ⟨s.mark.index + (s.peek 0).utf8Size, s.mark.line + 1, 0⟩ }
  else s

/-- Moves past a line break and gives it as it stands in a scalar: carriage returns, line feeds
and next lines become a line feed, line and paragraph separators stay. -/
def readBreak : Scan String := do
  let s ← get
  let c := s.peek 0
  skipLine
  if c.toNat == 0x2028 || c.toNat == 0x2029 then pure (String.singleton c)
  else if isBreak c then pure "\n"
  else pure ""

/-- Moves past the characters that satisfy `p`, at most `n` of them. -/
def skipWhileFor (p : Scanner → Bool) : Nat → Scan Unit
  | 0 => pure ()
  | n + 1 => do
    if p (← get) then
      skip
      skipWhileFor p n

/-- Moves past the characters that satisfy `p`, which fails at the end of the stream. -/
def skipWhile (p : Scanner → Bool) : Scan Unit := do skipWhileFor p (← get).room

/-- Reads the characters that satisfy `p` after `acc`, at most `n` of them. -/
def readWhileFor (p : Char → Bool) : String → Nat → Scan String
  | acc, 0 => pure acc
  | acc, n + 1 => do
    let c := (← get).peek 0
    if p c then
      skip
      readWhileFor p (acc.push c) n
    else pure acc

/-- Reads the characters that satisfy `p`, which fails at the end of the stream. -/
def readWhile (p : Char → Bool) : Scan String := do readWhileFor p "" (← get).room

/-- Appends a token to the queue. -/
def enqueue (t : Token) : Scan Unit := modify fun s => { s with queue := s.queue ++ [t] }

/-- Inserts `x` into `l` before position `i`. -/
def insertAt {α : Type} (i : Nat) (x : α) (l : List α) : List α := l.take i ++ x :: l.drop i

/-! ## Simple keys and indentation -/

/-- Drops the possible simple key of the current flow level; a required one is a fault. -/
def removeSimpleKey : Scan Unit := do
  let s ← get
  match s.keys with
  | k :: rest =>
    if k.possible && k.required then
      throw { problem := "could not find expected ':'", mark := s.mark,
              context := some ("while scanning a simple key", k.mark) }
    set { s with keys := { k with possible := false } :: rest }
  | [] => pure ()

/-- Records the current place as the possible simple key of the current flow level, if a simple
key may start here. -/
def saveSimpleKey : Scan Unit := do
  let s ← get
  if s.keyAllowed then
    let key : SimpleKey :=
      { possible := true, required := s.flowLevel == 0 && s.indent == (s.mark.column : Int),
        tokenNumber := s.parsed + s.queue.length, mark := s.mark }
    removeSimpleKey
    modify fun s => { s with keys := key :: s.keys.drop 1 }

/-- A possible simple key that can no longer be one, because the scanner has left its line or
gone more than 1024 bytes past it, is dropped; a required one is a fault. -/
def staleKey (m : Mark) (k : SimpleKey) : Except Fault SimpleKey :=
  if k.possible && (k.mark.line < m.line || k.mark.index + 1024 < m.index) then
    if k.required then
      .error { problem := "could not find expected ':'", mark := m,
               context := some ("while scanning a simple key", k.mark) }
    else .ok { k with possible := false }
  else .ok k

/-- Drops the possible simple keys that can no longer be keys, outermost first. -/
def staleSimpleKeys : Scan Unit := do
  let s ← get
  let keys ← MonadExcept.ofExcept (s.keys.reverse.mapM (staleKey s.mark))
  set { s with keys := keys.reverse }

/-- Enters a flow collection. -/
def increaseFlowLevel : Scan Unit := modify fun s =>
  { s with keys := {} :: s.keys, flowLevel := s.flowLevel + 1 }

/-- Leaves a flow collection. -/
def decreaseFlowLevel : Scan Unit := modify fun s =>
  if 0 < s.flowLevel then { s with flowLevel := s.flowLevel - 1, keys := s.keys.drop 1 } else s

/-- Opens a block at `column` if it is right of the current block, with a token of `kind` at
`m`, appended or placed before the token numbered `number`. -/
def rollIndent (column : Int) (number : Option Nat) (kind : TokenKind) (m : Mark) :
    Scan Unit := modify fun s =>
  if 0 < s.flowLevel || column ≤ s.indent then s
  else
    let t : Token := ⟨kind, m, m⟩
    { s with indents := s.indent :: s.indents, indent := column,
             queue := match number with
               | none => s.queue ++ [t]
               | some n => insertAt (n - s.parsed) t s.queue }

/-- The blocks left after closing every block right of `column`: the innermost column, the
enclosing ones, and how many were closed. -/
def unroll (column : Int) : Int → List Int → Int × List Int × Nat
  | indent, [] => (indent, [], 0)
  | indent, i :: rest =>
    if column < indent then
      let (a, b, n) := unroll column i rest
      (a, b, n + 1)
    else (indent, i :: rest, 0)

/-- Closes every block right of `column`, with a `blockEnd` token for each. -/
def unrollIndent (column : Int) : Scan Unit := modify fun s =>
  if 0 < s.flowLevel then s
  else
    let (indent, indents, n) := unroll column s.indent s.indents
    { s with indent, indents, queue := s.queue ++ List.replicate n ⟨.blockEnd, s.mark, s.mark⟩ }

/-! ## Blanks and comments -/

/-- Moves to the next token past blanks, comments and line breaks, at most `n` lines.  Tabs
are blanks except where a simple key may start in a block, and a byte order mark at the start
of a line is skipped. -/
def scanToNextTokenFor : Nat → Scan Unit
  | 0 => pure ()
  | n + 1 => do
    let s ← get
    if s.mark.column == 0 && s.peek 0 == byteOrderMark then skip
    skipWhile fun s => s.peek 0 == ' ' || ((0 < s.flowLevel || !s.keyAllowed) && s.peek 0 == '\t')
    if (← get).peek 0 == '#' then skipWhile fun s => !isBreakz (s.peek 0)
    let s ← get
    if isBreak (s.peek 0) then
      skipLine
      if s.flowLevel == 0 then modify fun s => { s with keyAllowed := true }
      scanToNextTokenFor n

/-- Moves to the next token. -/
def scanToNextToken : Scan Unit := do scanToNextTokenFor (← get).room

/-- Moves past blanks and a comment to the end of the line, which must come next. -/
def finishLine (context : String) (start : Mark) : Scan Unit := do
  skipWhile fun s => isBlank (s.peek 0)
  if (← get).peek 0 == '#' then skipWhile fun s => !isBreakz (s.peek 0)
  if !isBreakz ((← get).peek 0) then
    fail context start "did not find expected comment or line break"
  if isBreak ((← get).peek 0) then skipLine

/-! ## Directives -/

/-- Reads the digits of a version number, at most nine, after `length` digits of value
`value`. -/
def versionDigits (start : Mark) : Nat → Nat → Nat → Scan (Nat × Nat)
  | value, length, 0 => pure (value, length)
  | value, length, n + 1 => do
    let c := (← get).peek 0
    if c.isDigit then
      if 9 < length + 1 then
        fail "while scanning a %YAML directive" start "found extremely long version number"
      skip
      versionDigits start (10 * value + (c.toNat - 48)) (length + 1) n
    else pure (value, length)

/-- Reads a version number. -/
def versionNumber (start : Mark) : Scan Nat := do
  let (value, length) ← versionDigits start 0 0 (← get).room
  if length == 0 then
    fail "while scanning a %YAML directive" start "did not find expected version number"
  pure value

/-- Reads the value of a `%YAML` directive: `major.minor`. -/
def versionDirectiveValue (start : Mark) : Scan (Nat × Nat) := do
  skipWhile fun s => isBlank (s.peek 0)
  let major ← versionNumber start
  if (← get).peek 0 != '.' then
    fail "while scanning a %YAML directive" start "did not find expected digit or '.' character"
  skip
  let minor ← versionNumber start
  pure (major, minor)

/-- Reads a tag handle: `!`, or `!word!`, or in a tag also `!word`, which is not a handle but
the start of a tag's text. -/
def tagHandle (directive : Bool) (start : Mark) : Scan String := do
  if (← get).peek 0 != '!' then
    fail (if directive then "while scanning a tag directive" else "while scanning a tag") start
      "did not find expected '!'"
  skip
  let handle := "!" ++ (← readWhile isWordChar)
  if (← get).peek 0 == '!' then
    skip
    pure (handle ++ "!")
  else
    if directive && handle != "!" then
      fail "while parsing a tag directive" start "did not find expected '!'"
    pure handle

/-- Reads the octets of `%XX` escapes in a tag that make up one UTF-8 character, `width`
octets in all once the first is read. -/
def uriEscapes (directive : Bool) (start : Mark) (width : Nat) (octets : List UInt8) :
    Nat → Scan (List UInt8)
  | 0 => pure octets
  | n + 1 => do
    let s ← get
    let context := if directive then "while parsing a %TAG directive" else "while parsing a tag"
    if !(s.peek 0 == '%' && isHexDigit (s.peek 1) && isHexDigit (s.peek 2)) then
      fail context start "did not find URI escaped octet"
    let octet := 16 * hexValue (s.peek 1) + hexValue (s.peek 2)
    let width ←
      if width == 0 then
        let w := if octet &&& 0x80 == 0 then 1 else if octet &&& 0xE0 == 0xC0 then 2
          else if octet &&& 0xF0 == 0xE0 then 3 else if octet &&& 0xF8 == 0xF0 then 4 else 0
        if w == 0 then fail context start "found an incorrect leading UTF-8 octet"
        pure w
      else
        if octet &&& 0xC0 != 0x80 then fail context start "found an incorrect trailing UTF-8 octet"
        pure width
    skip; skip; skip
    let octets := octets ++ [octet.toUInt8]
    if octets.length == width then pure octets else uriEscapes directive start width octets n

/-- Reads the characters of a tag after `acc`, `length` of them counted so far, at most `n`
more. -/
def tagUriFor (verbatim directive : Bool) (start : Mark) : String → Nat → Nat → Scan (String × Nat)
  | acc, length, 0 => pure (acc, length)
  | acc, length, n + 1 => do
    let c := (← get).peek 0
    if isUriChar verbatim c then
      if c == '%' then
        let octets ← uriEscapes directive start 0 [] 4
        let text := (String.fromUTF8? ⟨octets.toArray⟩).getD (String.singleton (Char.ofNat 0xFFFD))
        tagUriFor verbatim directive start (acc ++ text) (length + 1) n
      else
        skip
        tagUriFor verbatim directive start (acc.push c) (length + 1) n
    else pure (acc, length)

/-- Reads the text of a tag, continuing the text `head` (without its `!`) if given; the tag
must not be empty. -/
def tagUri (verbatim directive : Bool) (head : Option String) (start : Mark) : Scan String := do
  let headText := match head with
    | some h => String.ofList (h.toList.drop 1)
    | none => ""
  let headLength := match head with
    | some h => h.length
    | none => 0
  let (text, length) ← tagUriFor verbatim directive start headText headLength (← get).room
  if length == 0 then
    fail (if directive then "while parsing a %TAG directive" else "while parsing a tag") start
      "did not find expected tag URI"
  pure text

/-- Reads the value of a `%TAG` directive: a handle and a prefix. -/
def tagDirectiveValue (start : Mark) : Scan (String × String) := do
  skipWhile fun s => isBlank (s.peek 0)
  let handle ← tagHandle true start
  if !isBlank ((← get).peek 0) then
    fail "while scanning a %TAG directive" start "did not find expected whitespace"
  skipWhile fun s => isBlank (s.peek 0)
  let pfx ← tagUri true true none start
  if !isBlankz ((← get).peek 0) then
    fail "while scanning a %TAG directive" start "did not find expected whitespace or line break"
  pure (handle, pfx)

/-- Reads a directive after `%`. -/
def scanDirective : Scan Token := do
  let start := (← get).mark
  skip
  let name ← readWhile isWordChar
  if name.isEmpty then
    fail "while scanning a directive" start "could not find expected directive name"
  if !isBlankz ((← get).peek 0) then
    fail "while scanning a directive" start "found unexpected non-alphabetical character"
  let kind ←
    if name == "YAML" then do
      let (major, minor) ← versionDirectiveValue start
      pure (TokenKind.versionDirective major minor)
    else if name == "TAG" then do
      let (handle, pfx) ← tagDirectiveValue start
      pure (TokenKind.tagDirective handle pfx)
    else fail "while scanning a directive" start "found unknown directive name"
  let stop := (← get).mark
  finishLine "while scanning a directive" start
  pure ⟨kind, start, stop⟩

/-! ## Anchors, aliases and tags -/

/-- Reads an anchor after `&` or an alias after `*`: a non-empty word, followed by a blank or
one of `?:,]%@`, the right curly bracket and the grave accent. -/
def scanAnchor (isAlias : Bool) : Scan Token := do
  let start := (← get).mark
  skip
  let name ← readWhile isWordChar
  let s ← get
  let c := s.peek 0
  if name.isEmpty || !(isBlankz c || "?:,]%@".contains c || c == closeCurly || c == graveAccent) then
    fail (if isAlias then "while scanning an alias" else "while scanning an anchor") start
      "did not find expected alphabetic or numeric character"
  pure ⟨if isAlias then .alias name else .anchor name, start, s.mark⟩

/-- Reads a tag: `!<text>`, `!handle!text`, `!text`, or `!` alone, which is the handle `""`
with the text `!`. -/
def scanTag : Scan Token := do
  let start := (← get).mark
  let (handle, suffix) ←
    if (← get).peek 1 == '<' then do
      skip; skip
      let suffix ← tagUri true false none start
      if (← get).peek 0 != '>' then
        fail "while scanning a tag" start "did not find the expected '>'"
      skip
      pure ("", suffix)
    else do
      let handle ← tagHandle false start
      if 1 < handle.length && handle.toList.getLast? == some '!' then
        let suffix ← tagUri false false none start
        pure (handle, suffix)
      else
        let suffix ← tagUri false false (some handle) start
        if suffix.isEmpty then pure ("", "!") else pure ("!", suffix)
  let s ← get
  let c := s.peek 0
  if !isBlankz c && !(0 < s.flowLevel && c == ',') then
    fail "while scanning a tag" start "did not find expected whitespace or line break"
  pure ⟨.tag handle suffix, start, s.mark⟩

/-! ## Scalars -/

/-- The pieces of a flow or plain scalar being read: its text, the line break that ended its
last line, the line breaks after that, the blanks not yet known to be inside the text, and
whether the scalar is between lines. -/
structure Pieces where
  /-- The text so far. -/
  text : String := ""
  /-- The first line break of the current gap between lines. -/
  leadingBreak : String := ""
  /-- The further line breaks of the gap. -/
  trailingBreaks : String := ""
  /-- Blanks after the text on the same line. -/
  whitespaces : String := ""
  /-- Whether the scalar is in a gap between lines. -/
  leadingBlanks : Bool := false

/-- The text with the gap before the next character joined in: blanks on one line stay, a
single line break folds into a space, and further line breaks stay as they are. -/
def Pieces.join (p : Pieces) : Pieces :=
  if p.leadingBlanks then
    let text :=
      if p.leadingBreak == "\n" then
        if p.trailingBreaks.isEmpty then p.text.push ' ' else p.text ++ p.trailingBreaks
      else p.text ++ p.leadingBreak ++ p.trailingBreaks
    { p with text, leadingBreak := "", trailingBreaks := "", leadingBlanks := false }
  else { p with text := p.text ++ p.whitespaces, whitespaces := "" }

/-- Reads blanks and line breaks into a gap, at most `n` of them.  With `tabGuard` holding the
scalar's start and its block's column plus one, a tab left of that column after a line break is
a fault. -/
def gapFor (tabGuard : Option (Mark × Int)) : Pieces → Nat → Scan Pieces
  | p, 0 => pure p
  | p, n + 1 => do
    let s ← get
    let c := s.peek 0
    if isBlank c then
      if let some (start, indent) := tabGuard then
        if p.leadingBlanks && (s.mark.column : Int) < indent && c == '\t' then
          fail "while scanning a plain scalar" start
            "found a tab character that violates indentation"
      skip
      if p.leadingBlanks then gapFor tabGuard p n
      else gapFor tabGuard { p with whitespaces := p.whitespaces.push c } n
    else if isBreak c then
      let b ← readBreak
      if p.leadingBlanks then gapFor tabGuard { p with trailingBreaks := p.trailingBreaks ++ b } n
      else gapFor tabGuard { p with whitespaces := "", leadingBreak := b, leadingBlanks := true } n
    else pure p

/-- The character of a one-letter escape in a double-quoted scalar. -/
def simpleEscape (c : Char) : Option Char :=
  match c with
  | '0' => some (Char.ofNat 0)
  | 'a' => some (Char.ofNat 7)
  | 'b' => some (Char.ofNat 8)
  | 't' => some '\t'
  | '\t' => some '\t'
  | 'n' => some '\n'
  | 'v' => some (Char.ofNat 11)
  | 'f' => some (Char.ofNat 12)
  | 'r' => some '\r'
  | 'e' => some (Char.ofNat 27)
  | ' ' => some ' '
  | '"' => some '"'
  | '/' => some '/'
  | '\\' => some '\\'
  | 'N' => some (Char.ofNat 0x85)
  | '_' => some (Char.ofNat 0xA0)
  | 'L' => some (Char.ofNat 0x2028)
  | 'P' => some (Char.ofNat 0x2029)
  | _ => none

/-- The value of the `k` hexadecimal digits at the scanner, if they are all hexadecimal. -/
def hexDigits (s : Scanner) (k : Nat) : Option Nat :=
  (List.range k).foldlM (fun v i =>
    let c := s.peek i
    if isHexDigit c then some (16 * v + hexValue c) else none) 0

/-- Reads the characters of a quoted scalar up to a blank, a line break or the closing quote,
at most `n` of them. -/
def quotedRunFor (single : Bool) (start : Mark) : Pieces → Nat → Scan Pieces
  | p, 0 => pure p
  | p, n + 1 => do
    let s ← get
    let c := s.peek 0
    if isBlankz c then pure p
    else if single && c == '\'' && s.peek 1 == '\'' then
      skip; skip
      quotedRunFor single start { p with text := p.text.push '\'' } n
    else if c == (if single then '\'' else '"') then pure p
    else if !single && c == '\\' && isBreak (s.peek 1) then
      skip
      skipLine
      pure { p with leadingBlanks := true }
    else if !single && c == '\\' then
      match simpleEscape (s.peek 1) with
      | some e =>
        skip; skip
        quotedRunFor single start { p with text := p.text.push e } n
      | none =>
        let e := s.peek 1
        let width := if e == 'x' then 2 else if e == 'u' then 4 else if e == 'U' then 8 else 0
        if width == 0 then
          fail "while parsing a quoted scalar" start "found unknown escape character"
        skip; skip
        match hexDigits (← get) width with
        | none =>
          fail "while parsing a quoted scalar" start "did not find expected hexadecimal number"
        | some v =>
          if (0xD800 ≤ v && v ≤ 0xDFFF) || 0x10FFFF < v then
            fail "while parsing a quoted scalar" start "found invalid Unicode character escape code"
          for _ in List.range width do skip
          quotedRunFor single start { p with text := p.text.push (Char.ofNat v) } n
    else
      skip
      quotedRunFor single start { p with text := p.text.push c } n

/-- Reads the lines of a quoted scalar, at most `n` of them. -/
def quotedLinesFor (single : Bool) (start : Mark) : Pieces → Nat → Scan Pieces
  | p, 0 => pure p
  | p, n + 1 => do
    let s ← get
    if s.atDocumentMarker then
      fail "while scanning a quoted scalar" start "found unexpected document indicator"
    if s.peek 0 == endChar then
      fail "while scanning a quoted scalar" start "found unexpected end of stream"
    let p ← quotedRunFor single start { p with leadingBlanks := false } (← get).room
    if (← get).peek 0 == (if single then '\'' else '"') then pure p
    else
      let p ← gapFor none p (← get).room
      quotedLinesFor single start p.join n

/-- Reads a single-quoted or double-quoted scalar. -/
def scanFlowScalar (single : Bool) : Scan Token := do
  let start := (← get).mark
  skip
  let p ← quotedLinesFor single start {} (← get).room
  skip
  pure ⟨.scalar p.text (if single then .singleQuoted else .doubleQuoted), start, (← get).mark⟩

/-- Reads the characters of a plain scalar on one line, at most `n` of them, with the mark after
the last one read. -/
def plainRunFor (start : Mark) : Pieces → Mark → Nat → Scan (Pieces × Mark)
  | p, stop, 0 => pure (p, stop)
  | p, stop, n + 1 => do
    let s ← get
    let c := s.peek 0
    if isBlankz c then pure (p, stop)
    else
      if 0 < s.flowLevel && c == ':' && (isFlowIndicator (s.peek 1) || s.peek 1 == '?') then
        fail "while scanning a plain scalar" start "found unexpected ':'"
      if (c == ':' && isBlankz (s.peek 1)) || (0 < s.flowLevel && isFlowIndicator c) then
        pure (p, stop)
      else
        let p := if p.leadingBlanks || !p.whitespaces.isEmpty then p.join else p
        skip
        plainRunFor start { p with text := p.text.push c } (← get).mark n

/-- Reads the lines of a plain scalar, at most `n` of them; a line left of `indent` in a block
ends it. -/
def plainLinesFor (start : Mark) (indent : Int) : Pieces → Mark → Nat → Scan (Pieces × Mark)
  | p, stop, 0 => pure (p, stop)
  | p, stop, n + 1 => do
    let s ← get
    if s.atDocumentMarker || s.peek 0 == '#' then pure (p, stop)
    else
      let (p, stop) ← plainRunFor start p stop (← get).room
      let c := (← get).peek 0
      if !(isBlank c || isBreak c) then pure (p, stop)
      else
        let p ← gapFor (some (start, indent)) p (← get).room
        let s ← get
        if s.flowLevel == 0 && (s.mark.column : Int) < indent then pure (p, stop)
        else plainLinesFor start indent p stop n

/-- Reads a plain scalar; one that ends between lines lets a simple key follow. -/
def scanPlainScalar : Scan Token := do
  let s ← get
  let (p, stop) ← plainLinesFor s.mark (s.indent + 1) {} s.mark s.room
  if p.leadingBlanks then modify fun s => { s with keyAllowed := true }
  pure ⟨.scalar p.text .plain, s.mark, stop⟩

/-- Moves past the indentation of the lines of a block scalar and past empty lines, at most `n`
lines, collecting their line breaks after `breaks`.  With `indent` zero the indentation is not
known yet, and the deepest empty line is recorded in `deepest`. -/
def blockGapFor (start : Mark) (indent : Int) :
    String → Mark → Nat → Nat → Scan (String × Mark × Nat)
  | breaks, stop, deepest, 0 => pure (breaks, stop, deepest)
  | breaks, stop, deepest, n + 1 => do
    skipWhile fun s => (indent == 0 || (s.mark.column : Int) < indent) && s.peek 0 == ' '
    let s ← get
    let deepest := max deepest s.mark.column
    if (indent == 0 || (s.mark.column : Int) < indent) && s.peek 0 == '\t' then
      fail "while scanning a block scalar" start
        "found a tab character where an indentation space is expected"
    if !isBreak (s.peek 0) then pure (breaks, stop, deepest)
    else
      let b ← readBreak
      blockGapFor start indent (breaks ++ b) (← get).mark deepest n

/-- Moves past indentation and empty lines before a line of a block scalar, and settles the
indentation if it is not known yet: the deepest of the empty lines and the first line, at
least one right of the enclosing block and at least one. -/
def blockGap (start : Mark) (indent : Int) : Scan (Int × String × Mark) := do
  let s ← get
  let (breaks, stop, deepest) ← blockGapFor start indent "" s.mark 0 s.room
  let indent := if indent == 0 then max (max (deepest : Int) (s.indent + 1)) 1 else indent
  pure (indent, breaks, stop)

/-- The pieces of a block scalar being read. -/
structure BlockPieces where
  /-- The text so far. -/
  text : String := ""
  /-- The line break that ended the last line. -/
  leadingBreak : String := ""
  /-- The line breaks of the empty lines after it. -/
  trailingBreaks : String := ""
  /-- Whether the last line started with a blank. -/
  leadingBlank : Bool := false
  /-- The mark after the last line break read. -/
  stop : Mark := {}

/-- Reads the lines of a block scalar at `indent`, at most `n` of them.  A folded scalar joins
two lines that do not start with a blank by a space, or drops the line break between them if
empty lines follow it. -/
def blockLinesFor (start : Mark) (literal : Bool) (indent : Int) :
    BlockPieces → Nat → Scan BlockPieces
  | b, 0 => pure b
  | b, n + 1 => do
    let s ← get
    if !((s.mark.column : Int) == indent && s.peek 0 != endChar) then pure b
    else
      let trailingBlank := isBlank (s.peek 0)
      let text :=
        if !literal && b.leadingBreak == "\n" && !b.leadingBlank && !trailingBlank then
          if b.trailingBreaks.isEmpty then b.text.push ' ' else b.text
        else b.text ++ b.leadingBreak
      let line ← readWhile fun c => !isBreakz c
      let leadingBreak ← readBreak
      let (_, trailingBreaks, stop) ← blockGap start indent
      blockLinesFor start literal indent
        { text := text ++ b.trailingBreaks ++ line, leadingBreak, trailingBreaks,
          leadingBlank := trailingBlank, stop } n

/-- Reads the indicators after `|` or `>`: a chomping indicator `+` or `-` and an indentation
digit other than zero, in either order. -/
def blockIndicators (start : Mark) : Scan (Int × Nat) := do
  let digit : Scan Nat := do
    let d := (← get).peek 0
    if d.isDigit then
      if d == '0' then
        fail "while scanning a block scalar" start "found an indentation indicator equal to 0"
      skip
      pure (d.toNat - 48)
    else pure 0
  let c := (← get).peek 0
  if c == '+' || c == '-' then
    skip
    let increment ← digit
    pure (if c == '+' then 1 else -1, increment)
  else if c.isDigit then
    let increment ← digit
    let d := (← get).peek 0
    if d == '+' || d == '-' then
      skip
      pure (if d == '+' then 1 else -1, increment)
    else pure (0, increment)
  else pure (0, 0)

/-- Reads a literal (`|`) or folded (`>`) block scalar.  Its last line break is dropped with
`-`, its trailing empty lines are kept with `+`. -/
def scanBlockScalar (literal : Bool) : Scan Token := do
  let start := (← get).mark
  skip
  let (chomping, increment) ← blockIndicators start
  finishLine "while scanning a block scalar" start
  let s ← get
  let indent : Int :=
    if increment == 0 then 0
    else if 0 ≤ s.indent then s.indent + increment else increment
  let (indent, breaks, stop) ← blockGap start indent
  let b ← blockLinesFor start literal indent { trailingBreaks := breaks, stop } (← get).room
  let text := if chomping == -1 then b.text else b.text ++ b.leadingBreak
  let text := if chomping == 1 then text ++ b.trailingBreaks else text
  pure ⟨.scalar text (if literal then .literal else .folded), start, b.stop⟩

/-! ## Fetching tokens -/

/-- Produces the stream start. -/
def fetchStreamStart : Scan Unit := modify fun s =>
  { s with indent := -1, keys := [{}], keyAllowed := true, started := true,
           queue := s.queue ++ [⟨.streamStart, s.mark, s.mark⟩] }

/-- Produces the stream end on a fresh line, closing every block. -/
def fetchStreamEnd : Scan Unit := do
  modify fun s =>
    if s.mark.column != 0 then { s with mark := { s.mark with column := 0, line := s.mark.line + 1 } }
    else s
  unrollIndent (-1)
  removeSimpleKey
  modify fun s => { s with keyAllowed := false }
  let m := (← get).mark
  enqueue ⟨.streamEnd, m, m⟩

/-- Closes every block and drops the simple key before a directive or document marker. -/
def resetBlocks : Scan Unit := do
  unrollIndent (-1)
  removeSimpleKey
  modify fun s => { s with keyAllowed := false }

/-- Produces a directive. -/
def fetchDirective : Scan Unit := do
  resetBlocks
  enqueue (← scanDirective)

/-- Produces a one-character or three-character indicator token of `kind`. -/
def fetchIndicator (kind : TokenKind) (width : Nat) : Scan Unit := do
  let start := (← get).mark
  for _ in List.range width do skip
  enqueue ⟨kind, start, (← get).mark⟩

/-- Produces a document marker. -/
def fetchDocumentIndicator (kind : TokenKind) : Scan Unit := do
  resetBlocks
  fetchIndicator kind 3

/-- Produces `[` or `{`, which may start a simple key. -/
def fetchFlowCollectionStart (kind : TokenKind) : Scan Unit := do
  saveSimpleKey
  increaseFlowLevel
  modify fun s => { s with keyAllowed := true }
  fetchIndicator kind 1

/-- Produces `]` or `}`. -/
def fetchFlowCollectionEnd (kind : TokenKind) : Scan Unit := do
  removeSimpleKey
  decreaseFlowLevel
  modify fun s => { s with keyAllowed := false }
  fetchIndicator kind 1

/-- Produces `,`. -/
def fetchFlowEntry : Scan Unit := do
  removeSimpleKey
  modify fun s => { s with keyAllowed := true }
  fetchIndicator .flowEntry 1

/-- Produces `-`, opening a block sequence in a block where none is open at this column. -/
def fetchBlockEntry : Scan Unit := do
  let s ← get
  if s.flowLevel == 0 then
    if !s.keyAllowed then failHere "block sequence entries are not allowed in this context"
    rollIndent s.mark.column none .blockSequenceStart s.mark
  removeSimpleKey
  modify fun s => { s with keyAllowed := true }
  fetchIndicator .blockEntry 1

/-- Produces `?`, opening a block mapping in a block where none is open at this column. -/
def fetchKey : Scan Unit := do
  let s ← get
  if s.flowLevel == 0 then
    if !s.keyAllowed then failHere "mapping keys are not allowed in this context"
    rollIndent s.mark.column none .blockMappingStart s.mark
  removeSimpleKey
  modify fun s => { s with keyAllowed := s.flowLevel == 0 }
  fetchIndicator .key 1

/-- Produces `:`.  After a possible simple key, a `key` token is placed before the key, and in a
block a mapping is opened at its column if none is. -/
def fetchValue : Scan Unit := do
  let s ← get
  match s.keys with
  | k :: rest =>
    if k.possible then
      set { s with queue := insertAt (k.tokenNumber - s.parsed) ⟨.key, k.mark, k.mark⟩ s.queue,
                   keys := { k with possible := false } :: rest }
      rollIndent k.mark.column (some k.tokenNumber) .blockMappingStart k.mark
      modify fun s => { s with keyAllowed := false }
    else
      if s.flowLevel == 0 then
        if !s.keyAllowed then failHere "mapping values are not allowed in this context"
        rollIndent s.mark.column none .blockMappingStart s.mark
      modify fun s => { s with keyAllowed := s.flowLevel == 0 }
  | [] => pure ()
  fetchIndicator .value 1

/-- Produces an anchor or alias, which may start a simple key. -/
def fetchAnchor (isAlias : Bool) : Scan Unit := do
  saveSimpleKey
  modify fun s => { s with keyAllowed := false }
  enqueue (← scanAnchor isAlias)

/-- Produces a tag, which may start a simple key. -/
def fetchTag : Scan Unit := do
  saveSimpleKey
  modify fun s => { s with keyAllowed := false }
  enqueue (← scanTag)

/-- Produces a block scalar. -/
def fetchBlockScalar (literal : Bool) : Scan Unit := do
  removeSimpleKey
  modify fun s => { s with keyAllowed := true }
  enqueue (← scanBlockScalar literal)

/-- Produces a quoted scalar, which may be a simple key. -/
def fetchFlowScalar (single : Bool) : Scan Unit := do
  saveSimpleKey
  modify fun s => { s with keyAllowed := false }
  enqueue (← scanFlowScalar single)

/-- Produces a plain scalar, which may be a simple key. -/
def fetchPlainScalar : Scan Unit := do
  saveSimpleKey
  modify fun s => { s with keyAllowed := false }
  enqueue (← scanPlainScalar)

/-- Whether a plain scalar may start here: not at a blank or an indicator, except that `-`
may start one before a non-blank, and `?` and `:` in a block before a non-blank. -/
def startsPlain (s : Scanner) : Bool :=
  let c := s.peek 0
  let c1 := s.peek 1
  !(isBlankz c || "-?:#&*!|>'\"%@".contains c || isFlowIndicator c || c == graveAccent) ||
    (c == '-' && !isBlank c1) ||
    (s.flowLevel == 0 && (c == '?' || c == ':') && !isBlankz c1)

/-- Scans the next token, or the stream start first. -/
def fetchNextToken : Scan Unit := do
  if !(← get).started then fetchStreamStart
  else
    scanToNextToken
    staleSimpleKeys
    unrollIndent (← get).mark.column
    let s ← get
    let c := s.peek 0
    let c1 := s.peek 1
    let marker := fun (m : Char) => s.mark.column == 0 && c == m && c1 == m && s.peek 2 == m &&
      isBlankz (s.peek 3)
    if c == endChar then fetchStreamEnd
    else if s.mark.column == 0 && c == '%' then fetchDirective
    else if marker '-' then fetchDocumentIndicator .documentStart
    else if marker '.' then fetchDocumentIndicator .documentEnd
    else if c == '[' then fetchFlowCollectionStart .flowSequenceStart
    else if c == '{' then fetchFlowCollectionStart .flowMappingStart
    else if c == ']' then fetchFlowCollectionEnd .flowSequenceEnd
    else if c == '}' then fetchFlowCollectionEnd .flowMappingEnd
    else if c == ',' then fetchFlowEntry
    else if c == '-' && isBlankz c1 then fetchBlockEntry
    else if c == '?' && (0 < s.flowLevel || isBlankz c1) then fetchKey
    else if c == ':' && (0 < s.flowLevel || isBlankz c1) then fetchValue
    else if c == '*' then fetchAnchor true
    else if c == '&' then fetchAnchor false
    else if c == '!' then fetchTag
    else if c == '|' && s.flowLevel == 0 then fetchBlockScalar true
    else if c == '>' && s.flowLevel == 0 then fetchBlockScalar false
    else if c == '\'' then fetchFlowScalar true
    else if c == '"' then fetchFlowScalar false
    else if startsPlain s then fetchPlainScalar
    else
      throw { problem := "found character that cannot start any token", mark := s.mark,
              context := some ("while scanning for the next token", s.mark) }

/-- Whether more tokens must be scanned before the first queued one is final: the queue is
empty, or a possible simple key starts at that token. -/
def needMoreTokens : Scan Bool := do
  if (← get).queue.isEmpty then return true
  staleSimpleKeys
  let s ← get
  return s.keys.any fun k => k.possible && k.tokenNumber == s.parsed

/-- Scans until the first queued token is final, at most `n` tokens. -/
def fetchMoreTokensFor : Nat → Scan Unit
  | 0 => modify fun s => { s with available := true }
  | n + 1 => do
    if ← needMoreTokens then
      fetchNextToken
      fetchMoreTokensFor n
    else modify fun s => { s with available := true }

/-- The next token, scanning as far as needed. -/
def peekToken : Scan Token := do
  let s ← get
  if !s.available then fetchMoreTokensFor (4 * s.input.size + 16)
  let s ← get
  pure (s.queue.headD ⟨.streamEnd, s.mark, s.mark⟩)

/-- Takes the next token. -/
def skipToken : Scan Unit := modify fun s =>
  { s with available := false, parsed := s.parsed + 1, queue := s.queue.drop 1 }

end ClusterSweep.Settings.Yaml
