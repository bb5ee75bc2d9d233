import ClusterSweep.Checked
import ClusterSweep.Text.Blank

/-!
# Durations

A duration is whole seconds and nanoseconds below one second, as settings give timeouts and time
limits.  Its text is `0` or a sequence of items, each a number followed by a unit:

    duration ::= blank* item (blank* item)* blank*
    item     ::= number unit
    number   ::= digit (digit | blank)* ("." blank* digit (digit | blank)*)?
    unit     ::= letter+                         (ASCII letters and µ)

Blanks inside a number are skipped, so `1. 5s` and `1.5 2s` are one number each, but a point
must be followed by a digit.  The units are `ns nsec nanos`, `us µs usec`, `ms msec millis`,
`s sec secs second seconds`, `m min mins minute minutes`, `h hr hrs hour hours`, `d day days`,
`w wk wks week weeks`, `M month months` (30.44 days) and `y yr yrs year years` (365.25 days).
A unit ends at a blank or at the digit of the next item, so `1h30m` is two items.

A number's whole part and its digits after the point are read into 64-bit words, the digits
after the point as a numerator over a power of ten, so at most nineteen of them.  Nanoseconds
take no fraction.  The fraction of a smaller unit up to the minute counts in nanoseconds, that
of the hour and larger units in seconds; the numerator times the unit in that count must fit in
64 bits and come out whole, so `0.01m` is 600 milliseconds and `0.0001h` is refused.

The items are added to a duration one after the other (`step`), each whole part before its
fraction.  A step adds 64-bit counts of nanoseconds and of seconds, carrying nanoseconds that
pass one second; a count past 64 bits, a bare number, a sign, a second point or an unknown unit
makes the text invalid.  Nanoseconds that come to exactly one second become a second at the end
of the step, and past the largest number of seconds that stops the program.

The same units write a duration back (`Duration.format`): years, months and days are plural
above one, each non-zero part once, largest first and separated by a blank, so ninety minutes
are `1h 30m` and zero is `0s`.
-/

namespace ClusterSweep

/-- A span of time: whole seconds and the nanoseconds below a second. -/
structure Duration where
  /-- Whole seconds. -/
  secs : Nat
  /-- Nanoseconds below one second. -/
  nanos : Nat
  deriving DecidableEq, Repr

namespace Duration

/-- One billion: nanoseconds in a second. -/
def nanosPerSec : Nat := 1000000000

/-- Whole seconds, a started second counting as one; past 64 bits it is an overflow. -/
def wholeSecs (d : Duration) : Except Overflow Nat :=
  checkedAdd u64Max d.secs (if 0 < d.nanos then 1 else 0)

/-- A number of whole seconds. -/
def ofSecs (s : Nat) : Duration := ⟨s, 0⟩

/-- The sum of two durations, when its seconds fit in 64 bits. -/
def add? (a b : Duration) : Option Duration :=
  let nanos := a.nanos + b.nanos
  let secs := a.secs + b.secs + nanos / nanosPerSec
  if secs ≤ u64Max then some ⟨secs, nanos % nanosPerSec⟩ else none

/-- A number as written: its whole part, and the digits after its point as the numerator
`num` over the power of ten `den`; `den` is one when no digit follows a point. -/
structure Amount where
  /-- The whole part. -/
  whole : Nat
  /-- The digits after the point. -/
  num : Nat
  /-- Ten to the number of digits after the point. -/
  den : Nat

/-- A unit of time, by how its amounts are counted. -/
inductive Unit where
  /-- The nanosecond, which takes no fraction. -/
  | nanosecond
  /-- A unit of `k` nanoseconds below a second, counted in nanoseconds. -/
  | subsecond (k : Nat)
  /-- The second or the minute, of `k` seconds: whole amounts count in seconds and fractions in
  nanoseconds. -/
  | short (k : Nat)
  /-- A unit of `k` seconds from the hour on, counted in seconds. -/
  | long (k : Nat)

/-- The unit named `unit`, or `none` for an unknown unit. -/
def unitOf (unit : String) : Option Unit :=
  if unit ∈ ["nanos", "nsec", "ns"] then some .nanosecond
  else if unit ∈ ["usec", "us", "µs"] then some (.subsecond 1000)
  else if unit ∈ ["millis", "msec", "ms"] then some (.subsecond 1000000)
  else if unit ∈ ["seconds", "second", "secs", "sec", "s"] then some (.short 1)
  else if unit ∈ ["minutes", "minute", "min", "mins", "m"] then some (.short 60)
  else if unit ∈ ["hours", "hour", "hr", "hrs", "h"] then some (.long 3600)
  else if unit ∈ ["days", "day", "d"] then some (.long 86400)
  else if unit ∈ ["weeks", "week", "wk", "wks", "w"] then some (.long 604800)
  else if unit ∈ ["months", "month", "M"] then some (.long 2630016)
  else if unit ∈ ["years", "year", "yr", "yrs", "y"] then some (.long 31557600)
  else none

/-- Why a duration text is not accepted. -/
inductive ParseError where
  /-- The text breaks the grammar, names an unknown unit, has a fraction that does not come out
  whole, or leaves the range of 64-bit counts. -/
  | invalid
  /-- The nanoseconds come to a whole second past the largest number of seconds; making the
  duration stops the program. -/
  | secondsOverflow
  deriving DecidableEq, Repr

/-- A count, when it fits in 64 bits. -/
def within (n : Nat) : Except ParseError Nat := if n ≤ u64Max then .ok n else .error .invalid

/-- The fraction `num / den` of `k`, when the product `num * k` fits in 64 bits and the
quotient comes out whole. -/
def part? (num den k : Nat) : Except ParseError Nat := do
  let p ← within (num * k)
  if p % den = 0 then pure (p / den) else throw .invalid

/-- Adds `s` seconds and `ns` nanoseconds to a duration, one step of reading a text.  The
nanoseconds are added first and carried into seconds once they pass one second, then the
seconds; every sum must fit in 64 bits.  Nanoseconds that come to exactly one second become a
second last, which past the largest number of seconds stops the program. -/
def step (d : Duration) (s ns : Nat) : Except ParseError Duration := do
  let nanos ← within (d.nanos + ns)
  let carried := if nanosPerSec < nanos then nanos / nanosPerSec else 0
  let nanos := if nanosPerSec < nanos then nanos % nanosPerSec else nanos
  let secs ← within (d.secs + (← within (s + carried)))
  if nanos < nanosPerSec then pure ⟨secs, nanos⟩
  else if secs < u64Max then pure ⟨secs + 1, 0⟩
  else throw .secondsOverflow

/-- Adds the item `a` of `unit` to a duration in two steps, its whole part and then its
fraction.  Both parts of a unit below a second count in nanoseconds; the whole part of a larger
unit counts in seconds, and its fraction in nanoseconds up to the minute and in seconds from the
hour on. -/
def addItem (unit : List Char) (a : Amount) (d : Duration) : Except ParseError Duration :=
  match unitOf (String.ofList unit) with
  | none => .error .invalid
  | some .nanosecond => if a.den = 1 then d.step 0 a.whole else .error .invalid
  | some (.subsecond k) => do
    let d ← d.step 0 (← within (a.whole * k))
    d.step 0 (← part? a.num a.den k)
  | some (.short k) => do
    let d ← d.step (← within (a.whole * k)) 0
    d.step 0 (← part? a.num a.den (k * nanosPerSec))
  | some (.long k) => do
    let d ← d.step (← within (a.whole * k)) 0
    d.step (← part? a.num a.den k) 0

/-- Where the reader stands in the text. -/
inductive Phase where
  /-- Before the first item: only blanks and a first digit may come. -/
  | start
  /-- Between items: blanks, a digit or the end may come. -/
  | between
  /-- Inside the whole part of a number. -/
  | whole (n : Nat)
  /-- After the point of a number. -/
  | fraction (a : Amount)
  /-- Inside a unit; the number and the letters so far. -/
  | unit (a : Amount) (letters : List Char)

/-- The value of an ASCII digit. -/
def digitValue (c : Char) : Nat := c.toNat - '0'.toNat

/-- Whether `c` may be part of a unit: an ASCII letter or the micro sign. -/
def isUnitLetter (c : Char) : Bool :=
  ('a' ≤ c && c ≤ 'z') || ('A' ≤ c && c ≤ 'Z') || c == 'µ'

/-- Starts a number with its first digit. -/
def firstDigit (c : Char) : Phase := .whole (digitValue c)

/-- Reads the rest of a duration text from phase `p`, the items before making up `d`. -/
def readFrom : Phase → Duration → List Char → Except ParseError Duration
  | .start, _, [] => .error .invalid
  | .between, d, [] => .ok d
  | .whole _, _, [] => .error .invalid
  | .fraction _, _, [] => .error .invalid
  | .unit a u, d, [] => addItem u a d
  | .start, d, c :: cs =>
    if Text.isBlank c then readFrom .start d cs
    else if c.isDigit then readFrom (firstDigit c) d cs
    else .error .invalid
  | .between, d, c :: cs =>
    if Text.isBlank c then readFrom .between d cs
    else if c.isDigit then readFrom (firstDigit c) d cs
    else .error .invalid
  | .whole n, d, c :: cs =>
    if c.isDigit then
      let n' := 10 * n + digitValue c
      if u64Max < n' then .error .invalid else readFrom (.whole n') d cs
    else if Text.isBlank c then readFrom (.whole n) d cs
    else if c == '.' then readFrom (.fraction ⟨n, 0, 1⟩) d cs
    else if isUnitLetter c then readFrom (.unit ⟨n, 0, 1⟩ [c]) d cs
    else .error .invalid
  | .fraction a, d, c :: cs =>
    if c.isDigit then
      let num := 10 * a.num + digitValue c
      let den := 10 * a.den
      if u64Max < num || u64Max < den then .error .invalid
      else readFrom (.fraction ⟨a.whole, num, den⟩) d cs
    else if Text.isBlank c then readFrom (.fraction a) d cs
    else if isUnitLetter c && a.den != 1 then readFrom (.unit a [c]) d cs
    else .error .invalid
  | .unit a u, d, c :: cs =>
    if isUnitLetter c then readFrom (.unit a (u ++ [c])) d cs
    else if c.isDigit then do readFrom (firstDigit c) (← addItem u a d) cs
    else if Text.isBlank c then do readFrom .between (← addItem u a d) cs
    else .error .invalid

/-- Reads a duration text. -/
def parse (s : String) : Except ParseError Duration :=
  if s = "0" then .ok ⟨0, 0⟩ else readFrom .start ⟨0, 0⟩ s.toList

/-- One part of a written duration: `VALUE NAME`, plural-marked when `plural` holds and the value
is above one; nothing for zero. -/
def part (plural : Bool) (name : String) (value : Nat) : List String :=
  if value = 0 then []
  else [toString value ++ name ++ (if plural && 1 < value then "s" else "")]

/-- The text of a duration: its non-zero parts from years down to nanoseconds. -/
def format (d : Duration) : String :=
  if d.secs = 0 && d.nanos = 0 then "0s" else
  let years := d.secs / 31557600
  let ydays := d.secs % 31557600
  let months := ydays / 2630016
  let mdays := ydays % 2630016
  let days := mdays / 86400
  let daySecs := mdays % 86400
  let parts :=
    part true "year" years ++ part true "month" months ++ part true "day" days ++
    part false "h" (daySecs / 3600) ++ part false "m" (daySecs % 3600 / 60) ++
    part false "s" (daySecs % 60) ++ part false "ms" (d.nanos / 1000000) ++
    part false "us" (d.nanos / 1000 % 1000) ++ part false "ns" (d.nanos % 1000)
  " ".intercalate parts

end Duration

end ClusterSweep
