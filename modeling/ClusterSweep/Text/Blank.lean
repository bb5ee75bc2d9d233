/-!
# Blank characters

The characters with the Unicode property `White_Space`: the ASCII tab, line feed, vertical tab,
form feed, carriage return and space, the next-line control, the no-break space, the Ogham
space mark, the en quad up to the hair space, the line and paragraph separators, the narrow
no-break space, the medium mathematical space and the ideographic space.  Trimming a text and
splitting it into words use this set, so `"1　ms"` splits into two words and a no-break
space is trimmed like a space.
-/

namespace ClusterSweep.Text

/-- Whether `c` has the Unicode property `White_Space`. -/
def isBlank (c : Char) : Bool :=
  let n := c.toNat
  (0x9 ≤ n && n ≤ 0xD) || n == 0x20 || n == 0x85 || n == 0xA0 || n == 0x1680 ||
    (0x2000 ≤ n && n ≤ 0x200A) || n == 0x2028 || n == 0x2029 || n == 0x202F ||
    n == 0x205F || n == 0x3000

/-- The characters of `cs` without the blanks at either end. -/
def trimList (cs : List Char) : List Char :=
  ((cs.dropWhile isBlank).reverse.dropWhile isBlank).reverse

/-- A text without the blanks at either end. -/
def trim (s : String) : String := String.ofList (trimList s.toList)

/-- The words of `cs` after the partial word `cur`, which is held reversed. -/
def wordsFrom : List Char → List Char → List (List Char)
  | [], cur => if cur.isEmpty then [] else [cur.reverse]
  | c :: cs, cur =>
    if isBlank c then
      if cur.isEmpty then wordsFrom cs [] else cur.reverse :: wordsFrom cs []
    else wordsFrom cs (c :: cur)

/-- Splits characters into the maximal runs of non-blank characters. -/
def wordsList (cs : List Char) : List (List Char) := wordsFrom cs []

/-- The maximal runs of non-blank characters of a text, in order. -/
def words (s : String) : List String := (wordsList s.toList).map String.ofList

end ClusterSweep.Text
