/-!
# Spans of time and points in time

Both are counted in nanoseconds. A `Span` is written in the largest unit that
makes its value at least one. A `Time` is a point on a clock that starts at zero;
timers ring on whole milliseconds, and a wait too long for the clock ends after
thirty years.
-/

namespace PeerCalls

/-- A length of time in nanoseconds. -/
structure Span where
  nanoseconds : Nat
  deriving Repr, DecidableEq, Inhabited

namespace Span

def ofMilliseconds (count : Nat) : Span := ⟨count * 1000000⟩

def ofSeconds (count : Nat) : Span := ⟨count * 1000000000⟩

/-- The longest span: 64 bits of seconds and all nanoseconds of one more. -/
def max : Span := ⟨(UInt64.size - 1) * 1000000000 + 999999999⟩

instance : LE Span := ⟨fun left right => left.nanoseconds ≤ right.nanoseconds⟩

instance : LT Span := ⟨fun left right => left.nanoseconds < right.nanoseconds⟩

instance (left right : Span) : Decidable (left ≤ right) :=
  inferInstanceAs (Decidable (left.nanoseconds ≤ right.nanoseconds))

instance (left right : Span) : Decidable (left < right) :=
  inferInstanceAs (Decidable (left.nanoseconds < right.nanoseconds))

/-- The span is empty. -/
def isZero (span : Span) : Bool := span.nanoseconds == 0

/-- Whole milliseconds of the span. -/
def milliseconds (span : Span) : Nat := span.nanoseconds / 1000000

/-- The shorter of two spans. -/
def shorter (left right : Span) : Span :=
  if left ≤ right then left else right

/-- A span taken several times, at most the longest one. -/
def times (span : Span) (count : Nat) : Span :=
  shorter ⟨span.nanoseconds * count⟩ max

/-- A fraction of a unit: the digits after the point, without trailing zeros, and
nothing at all for none. -/
def fractionText (places numerator : Nat) : String :=
  let digits := (Nat.toDigits 10 (Nat.pow 10 places + numerator)).drop 1
  let kept := (digits.reverse.dropWhile (· == '0')).reverse
  if kept.isEmpty then "" else "." ++ String.ofList kept

/-- A span in a unit of `10 ^ places` nanoseconds. -/
def inUnit (span : Span) (places : Nat) (unit : String) : String :=
  toString (span.nanoseconds / Nat.pow 10 places)
    ++ fractionText places (span.nanoseconds % Nat.pow 10 places) ++ unit

/-- The span in the largest unit that makes its value at least one. -/
def text (span : Span) : String :=
  if span.nanoseconds ≥ 1000000000 then span.inUnit 9 "s"
  else if span.nanoseconds ≥ 1000000 then span.inUnit 6 "ms"
  else if span.nanoseconds ≥ 1000 then span.inUnit 3 "µs"
  else span.inUnit 0 "ns"

end Span

/-- A point in time: nanoseconds since the start of the clock. -/
abbrev Time := Nat

namespace Time

/-- The clock counts 63 bits of seconds. -/
def horizon : Time := UInt64.size / 2 * 1000000000

/-- The time one span later, if the clock can reach it. -/
def after? (time : Time) (span : Span) : Option Time :=
  if time + span.nanoseconds < horizon then some (time + span.nanoseconds)
  else none

/-- The span from one time to a later one, and nothing back to an earlier one. -/
def spanTo (time later : Time) : Span := ⟨later - time⟩

/-- The whole millisecond at which a timer set for a time rings. -/
def tick (time : Time) : Time :=
  (time + 999999) / 1000000 * 1000000

/-- When a wait that begins now ends: thirty years from now if the clock cannot
reach its end. -/
def wakeAfter (now : Time) (span : Span) : Time :=
  tick ((after? now span).getD (now + 86400 * 365 * 30 * 1000000000))

end Time

end PeerCalls
