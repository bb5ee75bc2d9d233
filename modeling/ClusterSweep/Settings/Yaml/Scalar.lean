import ClusterSweep.Binary64.Read
import ClusterSweep.Binary64.Shortest
import ClusterSweep.Settings.Value
import ClusterSweep.Settings.Yaml.Scanner
import ClusterSweep.Text.Quoted

/-!
# YAML scalars

What a YAML scalar reads as.  A plain scalar without a tag is the empty value if it is empty or
one of `~`, `null`, `Null`, `NULL`; a truth value if it is `true`, `True`, `TRUE` or the same
for false; an integer if it reads as one, tried as an unsigned 64-bit, a signed 64-bit, an
unsigned 128-bit and a signed 128-bit integer in that order; a floating-point number if it reads
as a finite one or is one of the spellings of infinity and NaN; and a text otherwise.  A quoted
or block scalar is a text.

An integer is decimal, or `0x`, `0o`, `0b` digits, with an optional sign.  A decimal with a
leading zero followed by more digits, such as `007`, is a text, and so is a number too large for
128 bits that does not read as a finite float either.

The tags `!!bool`, `!!int`, `!!float` and `!!null` make a scalar of any style read as that kind
and reject it otherwise; any other tag makes it a text.
-/

namespace ClusterSweep.Settings.Yaml

open ClusterSweep.Text

/-- What a scalar reads as, with the width its integer needs. -/
inductive Reading where
  /-- The empty value. -/
  | unit
  /-- A truth value. -/
  | bool (b : Bool)
  /-- An integer that fits in an unsigned 64-bit word. -/
  | u64 (n : Nat)
  /-- An integer that needs a signed 64-bit word. -/
  | i64 (i : Int)
  /-- An integer that needs an unsigned 128-bit word. -/
  | u128 (n : Nat)
  /-- An integer that needs a signed 128-bit word. -/
  | i128 (i : Int)
  /-- A floating-point number. -/
  | f64 (x : Binary64)
  /-- A text. -/
  | str (s : String)
  deriving Repr

/-- The settings scalar of a reading. -/
def Reading.toScalar : Reading → Scalar
  | .unit => .null
  | .bool b => .bool b
  | .u64 n => .unsigned n
  | .i64 i => .signed i
  | .u128 n => .unsigned n
  | .i128 i => .signed i
  | .f64 x => .float x
  | .str s => .str s

/-- A floating-point number as rejections show it: its shortest decimal, with `.0` added to a
finite one that has no point. -/
def pointedText (x : Binary64) : String :=
  let t := Binary64.plainText x
  if x.isFinite && !t.contains '.' then t ++ ".0" else t

/-- A reading as a rejection of the whole document shows it. -/
def Reading.unexpected : Reading → String
  | .unit => "unit value"
  | .bool b => "boolean `" ++ toString b ++ "`"
  | .u64 n => "integer `" ++ toString n ++ "`"
  | .i64 i => "integer `" ++ toString i ++ "`"
  | .u128 n => "integer `" ++ toString n ++ "` as u128"
  | .i128 i => "integer `" ++ toString i ++ "` as i128"
  | .f64 x => "floating point `" ++ pointedText x ++ "`"
  | .str s => "string " ++ quoted s

/-- Whether a scalar is one of the spellings of the empty value other than the empty text. -/
def isNullWord (s : String) : Bool := s == "~" || s == "null" || s == "Null" || s == "NULL"

/-- A truth value spelled in one of its three ways. -/
def boolWord? (s : String) : Option Bool :=
  if s == "true" || s == "True" || s == "TRUE" then some true
  else if s == "false" || s == "False" || s == "FALSE" then some false
  else none

/-- Whether a decimal has a leading zero followed by more digits, after an optional sign. -/
def leadingZeroDigits (s : String) : Bool :=
  let cs := match s.toList with
    | '-' :: r => r
    | '+' :: r => r
    | r => r
  1 < cs.length && cs.head? == some '0' && (cs.drop 1).all Char.isDigit

/-- The value of the digit `c` in any base up to 36, or 99 if it is not a digit. -/
def digitOf (c : Char) : Nat :=
  if c.isDigit then c.toNat - 48
  else if 'a' ≤ c && c ≤ 'z' then c.toNat - 87
  else if 'A' ≤ c && c ≤ 'Z' then c.toNat - 55
  else 99

/-- The value of a non-empty run of digits in base `radix`. -/
def digitsValue (radix : Nat) (cs : List Char) : Option Nat :=
  if cs.isEmpty then none
  else cs.foldlM (fun n c => if digitOf c < radix then some (radix * n + digitOf c) else none) 0

/-- Whether characters start with a sign. -/
def startsWithSign (cs : List Char) : Bool := cs.head? == some '+' || cs.head? == some '-'

/-- Digits in base `radix` that fit in `bits` unsigned bits. -/
def unsignedDigits (bits radix : Nat) (cs : List Char) : Option Nat := do
  let n ← digitsValue radix cs
  if n < Nat.pow 2 bits then some n else none

/-- An integer in base `radix` with an optional sign that fits in `bits` signed bits. -/
def signedDigits (bits radix : Nat) (cs : List Char) : Option Int :=
  match cs with
  | '-' :: r => do
    let n ← digitsValue radix r
    if n ≤ Nat.pow 2 (bits - 1) then some (-(n : Int)) else none
  | '+' :: r => do
    let n ← digitsValue radix r
    if n < Nat.pow 2 (bits - 1) then some (n : Int) else none
  | r => do
    let n ← digitsValue radix r
    if n < Nat.pow 2 (bits - 1) then some (n : Int) else none

/-- A non-negative integer of `bits` bits: an optional plus sign, then `0x`, `0o` or `0b` and
digits, or decimal digits without a leading zero. -/
def unsignedOf (bits : Nat) (s : String) : Option Nat :=
  let cs := s.toList
  let u := match cs with
    | '+' :: r => r
    | r => r
  if cs.head? == some '+' && startsWithSign u then none
  else
    match u with
    | '0' :: 'x' :: rest => if startsWithSign rest then none else unsignedDigits bits 16 rest
    | '0' :: 'o' :: rest => if startsWithSign rest then none else unsignedDigits bits 8 rest
    | '0' :: 'b' :: rest => if startsWithSign rest then none else unsignedDigits bits 2 rest
    | _ =>
      if startsWithSign u || leadingZeroDigits s then none else unsignedDigits bits 10 u

/-- A signed integer of `bits` bits: a minus sign before `0x`, `0o` or `0b` and digits, or
decimal digits with an optional sign and without a leading zero. -/
def signedOf (bits : Nat) (s : String) : Option Int :=
  match s.toList with
  | '-' :: '0' :: 'x' :: rest => signedDigits bits 16 ('-' :: rest)
  | '-' :: '0' :: 'o' :: rest => signedDigits bits 8 ('-' :: rest)
  | '-' :: '0' :: 'b' :: rest => signedDigits bits 2 ('-' :: rest)
  | cs => if leadingZeroDigits s then none else signedDigits bits 10 cs

/-- The integer a scalar reads as, in the narrowest of the four widths that is tried first. -/
def integerOf (s : String) : Option Reading :=
  match unsignedOf 64 s with
  | some n => some (.u64 n)
  | none =>
    match signedOf 64 s with
    | some i => some (.i64 i)
    | none =>
      match unsignedOf 128 s with
      | some n => some (.u128 n)
      | none => (signedOf 128 s).map .i128

/-- A finite floating-point number, or one of `.inf`, `-.inf` and `.nan` in three spellings,
after an optional plus sign. -/
def floatOf (s : String) : Option Binary64 :=
  let cs := s.toList
  let u := match cs with
    | '+' :: r => r
    | r => r
  if cs.head? == some '+' && startsWithSign u then none
  else if [".inf", ".Inf", ".INF"].contains (String.ofList u) then some Binary64.inf
  else if ["-.inf", "-.Inf", "-.INF"].contains s then some Binary64.negInf
  else if [".nan", ".NaN", ".NAN"].contains s then some Binary64.nan
  else
    match Binary64.read? (String.ofList u) with
    | some x => if x.isFinite then some x else none
    | none => none

/-- What a plain scalar without a tag reads as. -/
def untagged (s : String) : Reading :=
  if s.isEmpty || isNullWord s then .unit
  else
    match boolWord? s with
    | some b => .bool b
    | none =>
      match integerOf s with
      | some r => r
      | none =>
        match (if leadingZeroDigits s then none else floatOf s) with
        | some x => .f64 x
        | none => .str s

/-- The full name of a tag of the core schema. -/
def coreTag (name : String) : String := "tag:yaml.org,2002:" ++ name

/-- The rejection of a tagged scalar that does not read as its tag's kind. -/
def notOfTag (s expected : String) : String :=
  "invalid value: string " ++ quoted s ++ ", expected " ++ expected

/-- What a scalar reads as, given its resolved tag; with `tagged` the tag has already been
taken as a variant name and is ignored. -/
def readScalar (tag : Option String) (tagged : Bool) (s : String) (style : ScalarStyle) :
    Except String Reading :=
  match tag, tagged with
  | some t, false =>
    if t == coreTag "bool" then
      match boolWord? s with
      | some b => .ok (.bool b)
      | none => .error (notOfTag s "a boolean")
    else if t == coreTag "int" then
      match integerOf s with
      | some r => .ok r
      | none => .error (notOfTag s "an integer")
    else if t == coreTag "float" then
      match floatOf s with
      | some x => .ok (.f64 x)
      | none => .error (notOfTag s "a float")
    else if t == coreTag "null" then
      if isNullWord s then .ok .unit else .error (notOfTag s "null")
    else if t.startsWith "!" && style == .plain then .ok (untagged s)
    else .ok (.str s)
  | _, _ => if style == .plain then .ok (untagged s) else .ok (.str s)

end ClusterSweep.Settings.Yaml
