import ClusterSweep.Binary64.Read
import ClusterSweep.Settings.Value
import ClusterSweep.Text.Blank
import ClusterSweep.Text.Integer

/-!
# Settings from environment variables

A variable whose name, trimmed of blanks, starts with the prefix (in any case) sets one
setting: the rest of the name, in lower case with every `__` read as a level of nesting, is its
key path, so `PS__SWEEP__CLIENTS` sets `clients` in `sweep`.  A name with an empty key part is ignored.
Variables are taken in the order of their names, and a later one overrides an earlier one at
the same path.

A value is read with a small grammar:

    value  ::= blank* (true | false | array | table | quoted | char | bare) blank*
    array  ::= "[" (value ("," value)* ","?)? "]"
    table  ::= "{" (key "=" value ("," key "=" value)* ","?)? "}"
    quoted ::= '"' (character | escape)* '"'
    char   ::= "'" one character "'"
    bare   ::= characters other than , { } [ ]

A bare value is a floating-point number if it holds a point and reads as one, otherwise an
unsigned integer, otherwise a signed integer, otherwise a text, in every case after trimming.
A value that does not follow the grammar as a whole is the whole variable as a text.
-/

namespace ClusterSweep.Settings.Environment

/-- Whether a character is an ASCII blank. -/
def isAsciiBlank (c : Char) : Bool := c == ' ' || c == '\t' || c == '\n' || c == '\r' || c == '\x0c'

/-- Whether a character ends a bare value. -/
def isSeparator (c : Char) : Bool := c == ',' || c == '{' || c == '}' || c == '[' || c == ']'

/-- Whether a character may stand in an unquoted table key. -/
def isKeyChar (c : Char) : Bool := c.isAlphanum || c == '_' || c == '-'

/-- The scalar of a bare value. -/
def bareScalar (s : String) : Scalar :=
  let t := Text.trim s
  let asFloat := if t.contains '.' then Binary64.read? t else none
  match asFloat with
  | some x => .float x
  | none =>
    match Text.readUnsigned 64 t with
    | .ok n => .unsigned n
    | .error _ =>
      match Text.readSigned 64 t with
      | .ok i => .signed i
      | .error _ => .str t

/-- The characters of a quoted value after its opening quote, up to its closing quote, and the
characters after that; a backslash takes the character after it along. -/
def quotedSpan (acc : List Char) : List Char → Option (List Char × List Char)
  | [] => none
  | '"' :: rest => some (acc.reverse, rest)
  | '\\' :: c :: rest => quotedSpan (c :: '\\' :: acc) rest
  | c :: rest => quotedSpan (c :: acc) rest

/-- The value of an ASCII hexadecimal digit. -/
def hexValue? (c : Char) : Option Nat :=
  if '0' ≤ c && c ≤ '9' then some (c.toNat - '0'.toNat)
  else if 'a' ≤ c && c ≤ 'f' then some (c.toNat - 'a'.toNat + 10)
  else if 'A' ≤ c && c ≤ 'F' then some (c.toNat - 'A'.toNat + 10)
  else none

/-- The character with the code written by the hexadecimal digits `ds`, if it is one. -/
def hexChar? (ds : List Char) : Option Char := do
  let v ← ds.foldlM (fun a d => (16 * a + ·) <$> hexValue? d) 0
  if v.isValidChar then some (Char.ofNat v) else none

/-- Whether a character may stand for itself in a quoted value: the tab, or any character from
the space on except the delete character. -/
def isTextChar (c : Char) : Bool := c == '\t' || (' ' ≤ c && c != '\x7f')

/-- Replaces the escapes of a quoted value: `\"`, `\\`, `\b`, `\f`, `\n`, `\r`, `\t`, and
`\u` with four or `\U` with eight hexadecimal digits naming a character.  Any other escape, and
a control character other than the tab, make the value invalid. -/
def unescape (acc : List Char) : List Char → Option String
  | [] => some (String.ofList acc.reverse)
  | '\\' :: 'u' :: a :: b :: c :: d :: rest => do
    unescape ((← hexChar? [a, b, c, d]) :: acc) rest
  | '\\' :: 'U' :: a :: b :: c :: d :: e :: f :: g :: h :: rest => do
    unescape ((← hexChar? [a, b, c, d, e, f, g, h]) :: acc) rest
  | '\\' :: c :: rest => do
    let ch ← match c with
      | '"' => some '"'
      | '\\' => some '\\'
      | 'b' => some '\x08'
      | 'f' => some '\x0c'
      | 'n' => some '\n'
      | 'r' => some '\r'
      | 't' => some '\t'
      | _ => none
    unescape (ch :: acc) rest
  | c :: rest => if isTextChar c then unescape (c :: acc) rest else none

/-- The text of a quoted value after its opening quote, and the characters after its closing
quote. -/
def quotedText (cs : List Char) : Option (String × List Char) := do
  let (inner, rest) ← quotedSpan [] cs
  pure (← unescape [] inner, rest)

/-- Skips ASCII blanks. -/
def skip (cs : List Char) : List Char := cs.dropWhile isAsciiBlank

mutual

/-- A value and the characters after it. -/
def value (o : Option Origin) (fuel : Nat) (cs : List Char) : Option (Value × List Char) :=
  match fuel with
  | 0 => none
  | fuel + 1 =>
    let cs := skip cs
    let finish := fun (v : Value) (rest : List Char) => some (v, skip rest)
    match cs with
    | 't' :: 'r' :: 'u' :: 'e' :: rest => finish (.scalar o (.bool true)) rest
    | 'f' :: 'a' :: 'l' :: 's' :: 'e' :: rest => finish (.scalar o (.bool false)) rest
    | '[' :: rest => do
      let (items, rest) ← items o fuel [] rest
      finish (.list o items) rest
    | '{' :: rest => do
      let (entries, rest) ← entries o fuel [] rest
      finish (Value.ofEntries o entries) rest
    | '"' :: rest => do
      let (s, rest) ← quotedText rest
      finish (.scalar o (.str s)) rest
    | '\'' :: c :: '\'' :: rest => finish (.scalar o (.str (String.singleton c))) rest
    | '\'' :: _ => none
    | cs =>
      let bare := cs.takeWhile fun c => !isSeparator c
      finish (.scalar o (bareScalar (String.ofList bare))) (cs.dropWhile fun c => !isSeparator c)

/-- The items of an array after `[`, `acc` holding those read, reversed. -/
def items (o : Option Origin) (fuel : Nat) (acc : List Value) (cs : List Char) :
    Option (List Value × List Char) :=
  match fuel with
  | 0 => none
  | fuel + 1 =>
    match cs with
    | ']' :: rest => some (acc.reverse, rest)
    | _ => do
      let (v, rest) ← value o fuel cs
      match rest with
      | ',' :: rest => items o fuel (v :: acc) rest
      | ']' :: rest => some ((v :: acc).reverse, rest)
      | _ => none

/-- The entries of a table after `{`, `acc` holding those read, reversed. -/
def entries (o : Option Origin) (fuel : Nat) (acc : List (String × Value)) (cs : List Char) :
    Option (List (String × Value) × List Char) :=
  match fuel with
  | 0 => none
  | fuel + 1 =>
    match cs with
    | '}' :: rest => some (acc.reverse, rest)
    | _ => do
      let cs := skip cs
      let (k, rest) ← match cs with
        | '"' :: rest => quotedText rest
        | _ =>
          let k := cs.takeWhile isKeyChar
          if k.isEmpty then none else some (String.ofList k, cs.dropWhile isKeyChar)
      match skip rest with
      | '=' :: rest => do
        let (v, rest) ← value o fuel rest
        match rest with
        | ',' :: rest => entries o fuel ((k, v) :: acc) rest
        | '}' :: rest => some (((k, v) :: acc).reverse, rest)
        | _ => none
      | _ => none

end

/-- The value of a variable. -/
def readValue (o : Option Origin) (s : String) : Value :=
  let cs := s.toList
  match value o (2 * cs.length + 2) cs with
  | some (v, []) => v
  | _ => .scalar o (.str s)

/-- The key path of a variable name below the prefix, if it names a setting.  The name is
trimmed before the prefix is matched, and the key after it. -/
def keyPath? (varPrefix name : String) : Option (List String) :=
  let name := Text.trim name
  let lower := name.toList.map Char.toLower
  let pre := varPrefix.toList.map Char.toLower
  if lower.take pre.length == pre then
    let rest := String.ofList (name.toList.drop pre.length)
    let key := Text.trim (".".intercalate (rest.splitOn "__"))
    let path := (key.splitOn ".").map fun part => String.ofList (part.toList.map Char.toLower)
    if path.any (·.isEmpty) then none else some path
  else none

/-- The table that sets one value at a key path. -/
def nest (o : Option Origin) : List String → Value → Value
  | [], v => v
  | k :: rest, v => Value.ofEntries o [(k, nest o rest v)]

/-- The settings of environment variables with the given prefix, in name order. -/
def layer (varPrefix : String) (vars : List (String × String)) : List (String × Value) :=
  let o := some (Origin.environment varPrefix)
  let sorted := vars.mergeSort fun a b => a.1 ≤ b.1
  let merged := sorted.foldl (fun (acc : Value) (name, text) =>
    match keyPath? varPrefix name with
    | some path => acc.merge (nest o path (readValue o text))
    | none => acc) (Value.table o [])
  match merged with
  | .table _ es => es
  | _ => []

end ClusterSweep.Settings.Environment
