import ClusterSweep.Settings.Yaml.Scanner

/-!
# YAML events

The second stage of reading a YAML stream turns its tokens into events: the stream's start and
end, each document's start and end, and in between a node tree written out as a sequence, with
scalars, aliases, and the starts and ends of sequences and mappings.  A node may carry an anchor
and a tag; a tag's handle is replaced by the prefix a `%TAG` directive gives it, `!` and `!!`
having the prefixes `!` and `tag:yaml.org,2002:` unless a directive says otherwise.

The parser is a state machine with a stack of states to return to, one step per event.  Where
the grammar allows a node to be left out — an empty document, a key without a value, `- ` at
the end of a line — the event is an empty plain scalar.  A token the grammar does not allow is
a fault naming what was expected and the construct being read, such as
`did not find expected key` `while parsing a block mapping`.
-/

namespace ClusterSweep.Settings.Yaml

/-- What an event is. -/
inductive EventKind where
  /-- The start of the stream. -/
  | streamStart
  /-- The end of the stream. -/
  | streamEnd
  /-- The start of a document. -/
  | documentStart
  /-- The end of a document. -/
  | documentEnd
  /-- A reference to an anchored node. -/
  | alias (name : String)
  /-- A scalar with its anchor, resolved tag, text and style. -/
  | scalar (anchor tag : Option String) (text : String) (style : ScalarStyle)
  /-- The start of a sequence with its anchor and resolved tag. -/
  | sequenceStart (anchor tag : Option String)
  /-- The end of a sequence. -/
  | sequenceEnd
  /-- The start of a mapping with its anchor and resolved tag. -/
  | mappingStart (anchor tag : Option String)
  /-- The end of a mapping. -/
  | mappingEnd
  deriving Repr, Inhabited

/-- An event and where it starts. -/
structure Event where
  /-- What the event is. -/
  kind : EventKind
  /-- Where it starts. -/
  start : Mark
  deriving Repr, Inhabited

/-- What the parser expects next. -/
inductive Expecting where
  | streamStart
  | implicitDocumentStart
  | documentStart
  | documentContent
  | documentEnd
  | blockNode
  | blockSequenceFirstEntry
  | blockSequenceEntry
  | indentlessSequenceEntry
  | blockMappingFirstKey
  | blockMappingKey
  | blockMappingValue
  | flowSequenceFirstEntry
  | flowSequenceEntry
  | flowSequenceEntryMappingKey
  | flowSequenceEntryMappingValue
  | flowSequenceEntryMappingEnd
  | flowMappingFirstKey
  | flowMappingKey
  | flowMappingValue
  | flowMappingEmptyValue
  | finished
  deriving DecidableEq, Repr, Inhabited

/-- The state of the parser. -/
structure Parser where
  /-- The scanner of the stream. -/
  scanner : Scanner
  /-- What comes next. -/
  expecting : Expecting := .streamStart
  /-- What to return to after the current node, innermost first. -/
  returns : List Expecting := []
  /-- The starts of the open collections, innermost first. -/
  marks : List Mark := []
  /-- The tag handles of the current document with their prefixes. -/
  handles : List (String × String) := []

/-- A parsing step, which may find a fault. -/
abbrev Parse (α : Type) := StateT Parser (Except Fault) α

/-- A parser of the characters of a stream. -/
def Parser.ofChars (cs : Array Char) : Parser := { scanner := { input := cs } }

/-- Runs a scanning step on the parser's scanner. -/
def onScanner {α : Type} (m : Scan α) : Parse α := fun p => do
  let (a, s) ← m.run p.scanner
  pure (a, { p with scanner := s })

/-- The next token. -/
def peek : Parse Token := onScanner peekToken

/-- Takes the next token. -/
def advance : Parse Unit := onScanner skipToken

/-- Continues with `e`. -/
def expect (e : Expecting) : Parse Unit := modify fun p => { p with expecting := e }

/-- Remembers to return to `e` after the current node. -/
def pushReturn (e : Expecting) : Parse Unit := modify fun p => { p with returns := e :: p.returns }

/-- Returns to the state remembered last. -/
def popReturn : Parse Unit := modify fun p =>
  match p.returns with
  | e :: rest => { p with expecting := e, returns := rest }
  | [] => p

/-- Remembers the start of a collection. -/
def pushMark (m : Mark) : Parse Unit := modify fun p => { p with marks := m :: p.marks }

/-- Forgets the start of the innermost collection and gives it. -/
def popMark : Parse Mark := do
  let p ← get
  set { p with marks := p.marks.drop 1 }
  pure (p.marks.headD {})

/-- Fails with `problem` at `m`. -/
def parseFault {α : Type} (problem : String) (m : Mark) : Parse α :=
  throw { problem, mark := m }

/-- Fails with `problem` at `m`, while reading `context` started at `start`. -/
def parseFaultIn {α : Type} (context : String) (start : Mark) (problem : String) (m : Mark) :
    Parse α :=
  throw { problem, mark := m, context := some (context, start) }

/-- An empty plain scalar at `m`. -/
def emptyScalar (m : Mark) : Event := ⟨.scalar none none "" .plain, m⟩

/-- Whether a token is of the given kind, ignoring its data. -/
def TokenKind.isKey : TokenKind → Bool
  | .key => true
  | _ => false

/-- Whether a token is `:`. -/
def TokenKind.isValue : TokenKind → Bool
  | .value => true
  | _ => false

/-- Whether a token is `-`. -/
def TokenKind.isBlockEntry : TokenKind → Bool
  | .blockEntry => true
  | _ => false

/-- Whether a token ends a block. -/
def TokenKind.isBlockEnd : TokenKind → Bool
  | .blockEnd => true
  | _ => false

/-- Whether a token is `,`. -/
def TokenKind.isFlowEntry : TokenKind → Bool
  | .flowEntry => true
  | _ => false

/-- Whether a token is `]`. -/
def TokenKind.isFlowSequenceEnd : TokenKind → Bool
  | .flowSequenceEnd => true
  | _ => false

/-- Whether a token is `}`. -/
def TokenKind.isFlowMappingEnd : TokenKind → Bool
  | .flowMappingEnd => true
  | _ => false

/-- Whether a token is `...`. -/
def TokenKind.isDocumentEnd : TokenKind → Bool
  | .documentEnd => true
  | _ => false

/-- Whether a token is a directive. -/
def TokenKind.isDirective : TokenKind → Bool
  | .versionDirective _ _ | .tagDirective _ _ => true
  | _ => false

/-- Whether a token ends the stream. -/
def TokenKind.isStreamEnd : TokenKind → Bool
  | .streamEnd => true
  | _ => false

/-! ## Documents -/

/-- Adds a tag handle; a handle given twice is a fault unless `allowRepeat` holds, in which case
the first stays. -/
def addHandle (handle pfx : String) (allowRepeat : Bool) (m : Mark) : Parse Unit := do
  let p ← get
  if p.handles.any (·.1 == handle) then
    if !allowRepeat then parseFault "found duplicate %TAG directive" m
  else set { p with handles := p.handles ++ [(handle, pfx)] }

/-- Reads the directives before a document, at most `n` of them, `version` telling whether a
`%YAML` directive has been read; then adds the default handles. -/
def processDirectivesFor (version : Bool) : Nat → Parse Unit
  | 0 => pure ()
  | n + 1 => do
    let t ← peek
    match t.kind with
    | .versionDirective major minor =>
      if version then parseFault "found duplicate %YAML directive" t.start
      if major != 1 || (minor != 1 && minor != 2) then
        parseFault "found incompatible YAML document" t.start
      advance
      processDirectivesFor true n
    | .tagDirective handle pfx =>
      addHandle handle pfx false t.start
      advance
      processDirectivesFor version n
    | _ =>
      addHandle "!" "!" true t.start
      addHandle "!!" "tag:yaml.org,2002:" true t.start

/-- Reads the directives before a document. -/
def processDirectives : Parse Unit := do
  processDirectivesFor false (4 * (← get).scanner.input.size + 16)

/-- Moves past document end markers before a document, at most `n` of them. -/
def skipDocumentEndsFor : Nat → Parse Token
  | 0 => peek
  | n + 1 => do
    let t ← peek
    if t.kind.isDocumentEnd then
      advance
      skipDocumentEndsFor n
    else pure t

/-- The start of the stream. -/
def parseStreamStart : Parse Event := do
  let t ← peek
  match t.kind with
  | .streamStart =>
    expect .implicitDocumentStart
    advance
    pure ⟨.streamStart, t.start⟩
  | _ => parseFault "did not find expected <stream-start>" t.start

/-- The start of a document, which must be explicit (`---`) except for the first one, or the
end of the stream. -/
def parseDocumentStart (implicit : Bool) : Parse Event := do
  let t ← if implicit then peek else skipDocumentEndsFor (4 * (← get).scanner.input.size + 16)
  if implicit && !t.kind.isDirective && !(match t.kind with | .documentStart => true | _ => false) &&
      !t.kind.isStreamEnd then
    processDirectives
    pushReturn .documentEnd
    expect .blockNode
    pure ⟨.documentStart, t.start⟩
  else if !t.kind.isStreamEnd then
    processDirectives
    let t' ← peek
    match t'.kind with
    | .documentStart =>
      pushReturn .documentEnd
      expect .documentContent
      advance
      pure ⟨.documentStart, t.start⟩
    | _ => parseFault "did not find expected <document start>" t'.start
  else
    expect .finished
    advance
    pure ⟨.streamEnd, t.start⟩

/-- The end of a document, explicit (`...`) or not. -/
def parseDocumentEnd : Parse Event := do
  let t ← peek
  if t.kind.isDocumentEnd then advance
  modify fun p => { p with handles := [] }
  expect .documentStart
  pure ⟨.documentEnd, t.start⟩

/-! ## Nodes -/

/-- The tag that `handle` and `suffix` name: the suffix alone for an empty handle, otherwise the
handle's prefix before the suffix; an unknown handle is a fault. -/
def resolveTag (handle suffix : String) (start tagMark : Mark) : Parse String := do
  if handle.isEmpty then pure suffix
  else
    match (← get).handles.lookup handle with
    | some pfx => pure (pfx ++ suffix)
    | none => parseFaultIn "while parsing a node" start "found undefined tag handle" tagMark

/-- Reads a node's properties: an anchor and a tag, in either order. -/
def nodeProperties : Parse (Option String × Option (String × String × Mark) × Mark) := do
  let t ← peek
  match t.kind with
  | .anchor name =>
    advance
    let t' ← peek
    match t'.kind with
    | .tag handle suffix =>
      advance
      pure (some name, some (handle, suffix, t'.start), t.start)
    | _ => pure (some name, none, t.start)
  | .tag handle suffix =>
    advance
    let t' ← peek
    match t'.kind with
    | .anchor name =>
      advance
      pure (some name, some (handle, suffix, t.start), t.start)
    | _ => pure (none, some (handle, suffix, t.start), t.start)
  | _ => pure (none, none, t.start)

/-- A node in a block (`block`) or flow context; with `indentless` a `-` at the column of the
enclosing mapping starts a sequence. -/
def parseNode (block indentless : Bool) : Parse Event := do
  let t ← peek
  match t.kind with
  | .alias name =>
    popReturn
    advance
    pure ⟨.alias name, t.start⟩
  | _ =>
    let (anchor, tagged, start) ← nodeProperties
    let tag ← match tagged with
      | some (handle, suffix, tagMark) => some <$> resolveTag handle suffix start tagMark
      | none => pure none
    let t ← peek
    match t.kind with
    | .blockEntry =>
      if indentless then
        expect .indentlessSequenceEntry
        pure ⟨.sequenceStart anchor tag, start⟩
      else if anchor.isSome || tag.isSome then
        popReturn
        pure ⟨.scalar anchor tag "" .plain, start⟩
      else
        parseFaultIn (if block then "while parsing a block node" else "while parsing a flow node")
          start "did not find expected node content" t.start
    | .scalar text style =>
      popReturn
      advance
      pure ⟨.scalar anchor tag text style, start⟩
    | .flowSequenceStart =>
      expect .flowSequenceFirstEntry
      pure ⟨.sequenceStart anchor tag, start⟩
    | .flowMappingStart =>
      expect .flowMappingFirstKey
      pure ⟨.mappingStart anchor tag, start⟩
    | .blockSequenceStart =>
      if block then
        expect .blockSequenceFirstEntry
        pure ⟨.sequenceStart anchor tag, start⟩
      else if anchor.isSome || tag.isSome then
        popReturn
        pure ⟨.scalar anchor tag "" .plain, start⟩
      else
        parseFaultIn "while parsing a flow node" start "did not find expected node content" t.start
    | .blockMappingStart =>
      if block then
        expect .blockMappingFirstKey
        pure ⟨.mappingStart anchor tag, start⟩
      else if anchor.isSome || tag.isSome then
        popReturn
        pure ⟨.scalar anchor tag "" .plain, start⟩
      else
        parseFaultIn "while parsing a flow node" start "did not find expected node content" t.start
    | _ =>
      if anchor.isSome || tag.isSome then
        popReturn
        pure ⟨.scalar anchor tag "" .plain, start⟩
      else
        parseFaultIn (if block then "while parsing a block node" else "while parsing a flow node")
          start "did not find expected node content" t.start

/-- The content of an explicit document, empty if the document ends at once. -/
def parseDocumentContent : Parse Event := do
  let t ← peek
  match t.kind with
  | .versionDirective _ _ | .tagDirective _ _ | .documentStart | .documentEnd | .streamEnd =>
    popReturn
    pure (emptyScalar t.start)
  | _ => parseNode true false

/-! ## Block collections -/

/-- An entry of a block sequence, or its end. -/
def parseBlockSequenceEntry (first : Bool) : Parse Event := do
  if first then
    pushMark (← peek).start
    advance
  let t ← peek
  match t.kind with
  | .blockEntry =>
    advance
    let t' ← peek
    if !t'.kind.isBlockEntry && !t'.kind.isBlockEnd then
      pushReturn .blockSequenceEntry
      parseNode true false
    else
      expect .blockSequenceEntry
      pure (emptyScalar t.stop)
  | .blockEnd =>
    popReturn
    let _ ← popMark
    advance
    pure ⟨.sequenceEnd, t.start⟩
  | _ =>
    parseFaultIn "while parsing a block collection" (← popMark)
      "did not find expected '-' indicator" t.start

/-- An entry of a sequence written at the column of its mapping, or its end. -/
def parseIndentlessSequenceEntry : Parse Event := do
  let t ← peek
  match t.kind with
  | .blockEntry =>
    advance
    let t' ← peek
    if !t'.kind.isBlockEntry && !t'.kind.isKey && !t'.kind.isValue && !t'.kind.isBlockEnd then
      pushReturn .indentlessSequenceEntry
      parseNode true false
    else
      expect .indentlessSequenceEntry
      pure (emptyScalar t.stop)
  | _ =>
    popReturn
    pure ⟨.sequenceEnd, t.start⟩

/-- A key of a block mapping, or its end. -/
def parseBlockMappingKey (first : Bool) : Parse Event := do
  if first then
    pushMark (← peek).start
    advance
  let t ← peek
  match t.kind with
  | .key =>
    advance
    let t' ← peek
    if !t'.kind.isKey && !t'.kind.isValue && !t'.kind.isBlockEnd then
      pushReturn .blockMappingValue
      parseNode true true
    else
      expect .blockMappingValue
      pure (emptyScalar t.stop)
  | .blockEnd =>
    popReturn
    let _ ← popMark
    advance
    pure ⟨.mappingEnd, t.start⟩
  | _ =>
    parseFaultIn "while parsing a block mapping" (← popMark) "did not find expected key" t.start

/-- A value of a block mapping, empty if the next key or the end comes first. -/
def parseBlockMappingValue : Parse Event := do
  let t ← peek
  match t.kind with
  | .value =>
    advance
    let t' ← peek
    if !t'.kind.isKey && !t'.kind.isValue && !t'.kind.isBlockEnd then
      pushReturn .blockMappingKey
      parseNode true true
    else
      expect .blockMappingKey
      pure (emptyScalar t.stop)
  | _ =>
    expect .blockMappingKey
    pure (emptyScalar t.start)

/-! ## Flow collections -/

/-- An entry of a flow sequence, or its end; a `?` or a simple key starts a mapping of one
pair. -/
def parseFlowSequenceEntry (first : Bool) : Parse Event := do
  if first then
    pushMark (← peek).start
    advance
  let t ← peek
  let t ←
    if !t.kind.isFlowSequenceEnd && !first then
      if t.kind.isFlowEntry then
        advance
        peek
      else
        parseFaultIn "while parsing a flow sequence" (← popMark) "did not find expected ',' or ']'"
          t.start
    else pure t
  if t.kind.isKey then
    expect .flowSequenceEntryMappingKey
    advance
    pure ⟨.mappingStart none none, t.start⟩
  else if !t.kind.isFlowSequenceEnd then
    pushReturn .flowSequenceEntry
    parseNode false false
  else
    popReturn
    let _ ← popMark
    advance
    pure ⟨.sequenceEnd, t.start⟩

/-- The key of a one-pair mapping in a flow sequence. -/
def parseFlowSequenceEntryMappingKey : Parse Event := do
  let t ← peek
  if !t.kind.isValue && !t.kind.isFlowEntry && !t.kind.isFlowSequenceEnd then
    pushReturn .flowSequenceEntryMappingValue
    parseNode false false
  else
    advance
    expect .flowSequenceEntryMappingValue
    pure (emptyScalar t.stop)

/-- The value of a one-pair mapping in a flow sequence. -/
def parseFlowSequenceEntryMappingValue : Parse Event := do
  let t ← peek
  if t.kind.isValue then
    advance
    let t' ← peek
    if !t'.kind.isFlowEntry && !t'.kind.isFlowSequenceEnd then
      pushReturn .flowSequenceEntryMappingEnd
      parseNode false false
    else
      expect .flowSequenceEntryMappingEnd
      pure (emptyScalar t'.start)
  else
    expect .flowSequenceEntryMappingEnd
    pure (emptyScalar t.start)

/-- The end of a one-pair mapping in a flow sequence. -/
def parseFlowSequenceEntryMappingEnd : Parse Event := do
  let t ← peek
  expect .flowSequenceEntry
  pure ⟨.mappingEnd, t.start⟩

/-- A key of a flow mapping, or its end. -/
def parseFlowMappingKey (first : Bool) : Parse Event := do
  if first then
    pushMark (← peek).start
    advance
  let t ← peek
  let t ←
    if !t.kind.isFlowMappingEnd && !first then
      if t.kind.isFlowEntry then
        advance
        peek
      else
        parseFaultIn "while parsing a flow mapping" (← popMark) ("did not find expected ',' or '" ++ String.singleton closeCurly ++ "'")
          t.start
    else pure t
  if t.kind.isKey then
    advance
    let t' ← peek
    if !t'.kind.isValue && !t'.kind.isFlowEntry && !t'.kind.isFlowMappingEnd then
      pushReturn .flowMappingValue
      parseNode false false
    else
      expect .flowMappingValue
      pure (emptyScalar t'.start)
  else if !t.kind.isFlowMappingEnd then
    pushReturn .flowMappingEmptyValue
    parseNode false false
  else
    popReturn
    let _ ← popMark
    advance
    pure ⟨.mappingEnd, t.start⟩

/-- A value of a flow mapping, empty if none is given. -/
def parseFlowMappingValue (empty : Bool) : Parse Event := do
  let t ← peek
  if empty then
    expect .flowMappingKey
    pure (emptyScalar t.start)
  else if t.kind.isValue then
    advance
    let t' ← peek
    if !t'.kind.isFlowEntry && !t'.kind.isFlowMappingEnd then
      pushReturn .flowMappingKey
      parseNode false false
    else
      expect .flowMappingKey
      pure (emptyScalar t'.start)
  else
    expect .flowMappingKey
    pure (emptyScalar t.start)

/-- The next event, or nothing after the end of the stream. -/
def nextEvent : Parse (Option Event) := do
  match (← get).expecting with
  | .finished => pure none
  | .streamStart => some <$> parseStreamStart
  | .implicitDocumentStart => some <$> parseDocumentStart true
  | .documentStart => some <$> parseDocumentStart false
  | .documentContent => some <$> parseDocumentContent
  | .documentEnd => some <$> parseDocumentEnd
  | .blockNode => some <$> parseNode true false
  | .blockSequenceFirstEntry => some <$> parseBlockSequenceEntry true
  | .blockSequenceEntry => some <$> parseBlockSequenceEntry false
  | .indentlessSequenceEntry => some <$> parseIndentlessSequenceEntry
  | .blockMappingFirstKey => some <$> parseBlockMappingKey true
  | .blockMappingKey => some <$> parseBlockMappingKey false
  | .blockMappingValue => some <$> parseBlockMappingValue
  | .flowSequenceFirstEntry => some <$> parseFlowSequenceEntry true
  | .flowSequenceEntry => some <$> parseFlowSequenceEntry false
  | .flowSequenceEntryMappingKey => some <$> parseFlowSequenceEntryMappingKey
  | .flowSequenceEntryMappingValue => some <$> parseFlowSequenceEntryMappingValue
  | .flowSequenceEntryMappingEnd => some <$> parseFlowSequenceEntryMappingEnd
  | .flowMappingFirstKey => some <$> parseFlowMappingKey true
  | .flowMappingKey => some <$> parseFlowMappingKey false
  | .flowMappingValue => some <$> parseFlowMappingValue false
  | .flowMappingEmptyValue => some <$> parseFlowMappingValue true

end ClusterSweep.Settings.Yaml
