/-!
# Lines of a byte stream

A byte stream is cut into lines at every line feed; the line feed and one carriage return
before it are not part of the line.  Bytes after the last line feed form a last line if there
are any, kept whole, so `a\r` without a line feed keeps its carriage return.  Each line must be
UTF-8 on its own; `Lines.decode` gives `none` for a line that is not.
-/

namespace ClusterSweep.Text

/-- The line feed byte. -/
def lineFeed : UInt8 := 10

/-- The carriage return byte. -/
def carriageReturn : UInt8 := 13

/-- A finished line, held reversed, without one carriage return at its end. -/
def dropReturn (rev : List UInt8) : List UInt8 :=
  match rev with
  | b :: rest => if b == carriageReturn then rest else rev
  | [] => []

/-- The lines of `bs` after the partial line `cur`, which is held reversed. -/
def linesFrom : List UInt8 → List UInt8 → List (List UInt8)
  | [], cur => if cur.isEmpty then [] else [cur.reverse]
  | b :: bs, cur =>
    if b == lineFeed then (dropReturn cur).reverse :: linesFrom bs []
    else linesFrom bs (b :: cur)

/-- The lines of a byte stream, as bytes. -/
def byteLines (data : ByteArray) : List (List UInt8) := linesFrom data.toList []

/-- The lines of a byte stream as texts, `none` for a line that is not UTF-8. -/
def decodeLines (data : ByteArray) : List (Option String) :=
  (byteLines data).map fun bs => String.fromUTF8? (ByteArray.mk bs.toArray)

end ClusterSweep.Text
