import ClusterSweep.Text.Printable

/-!
# Quoted texts

Error messages show a rejected text between double quotes, escaped so that the quoted form is
one line of visible characters: a backslash, a double quote, a tab, a line feed, a carriage
return and a NUL get a backslash escape, and every other character that is not shown as itself
(`isHidden`: not printable, or extending the grapheme before it) is written as `\u` followed by
its code in lower-case hexadecimal digits between braces.  All other characters stand for
themselves.
-/

namespace ClusterSweep.Text

/-- The lower-case hexadecimal digits of `n`. -/
def hexDigits (n : Nat) : String :=
  String.ofList (Nat.toDigits 16 n)

/-- An opening curly brace. -/
def openBrace : String := String.singleton (Char.ofNat 123)

/-- A closing curly brace. -/
def closeBrace : String := String.singleton (Char.ofNat 125)

/-- The quoted form of one character. -/
def escapeChar (c : Char) : String :=
  match c with
  | '\\' => "\\\\"
  | '"' => "\\\""
  | '\t' => "\\t"
  | '\n' => "\\n"
  | '\r' => "\\r"
  | '\x00' => "\\0"
  | c => if isHidden c then "\\u" ++ openBrace ++ hexDigits c.toNat ++ closeBrace
      else String.singleton c

/-- A text between double quotes, escaped. -/
def quoted (s : String) : String :=
  "\"" ++ String.join (s.toList.map escapeChar) ++ "\""

end ClusterSweep.Text
