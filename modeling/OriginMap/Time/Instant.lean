import OriginMap.Time.Calendar

/-!
# Instants

A point in time is a second, counted from the first of January 1970, and nanoseconds in it. A leap
second is written as the second before it with a thousand million nanoseconds more. Instants are kept
from the start of the year -262143 to the end of the year 262142.
-/

namespace OriginMap.Time

/-- A point in time. -/
structure Instant where
  /-- Seconds since the first of January 1970. -/
  seconds : Int
  /-- Nanoseconds in the second; a thousand million or more in a leap second. -/
  nanos : Nat
  deriving DecidableEq, Repr, Inhabited

/-- A length of time. -/
structure Span where
  /-- Whole seconds. -/
  seconds : Nat
  /-- Nanoseconds beyond them. -/
  nanos : Nat
  deriving DecidableEq, Repr

/-- Seconds in a day. -/
def daySeconds : Nat := 86400

/-- Nanoseconds in a second. -/
def secondNanos : Nat := 1000000000

/-- A span of whole days. -/
def Span.days (count : Nat) : Span := ⟨count * daySeconds, 0⟩

/-- The length of a span in nanoseconds. -/
def Span.total (s : Span) : Nat := s.seconds * secondNanos + s.nanos

namespace Instant

/-- Whether one instant comes before another. -/
def before (a b : Instant) : Bool :=
  a.seconds < b.seconds || (a.seconds = b.seconds && a.nanos < b.nanos)

/-- The first instant that is kept. -/
def first : Instant := ⟨(Date.mk (-262143) 1 1).number * daySeconds, 0⟩

/-- The second that ends the range that is kept. -/
def lastSecond : Int := (Date.mk 262143 1 1).number * daySeconds - 1

/-- Whether an instant lies in the range that is kept. -/
def kept (t : Instant) : Bool := first.seconds ≤ t.seconds && t.seconds ≤ lastSecond

/-- The longest span that can be taken from an instant, in nanoseconds: as many milliseconds as the
largest signed word of sixty-four bits. -/
def longestSpan : Nat := 9223372036854775807 * 1000000

/-- The instant that lies a span earlier, if the span and the result are in range. -/
def minus? (t : Instant) (age : Span) : Option Instant :=
  if longestSpan < age.total then none
  else
    let total : Int := t.seconds * secondNanos + t.nanos - age.total
    let earlier : Instant := ⟨total / secondNanos, (total % secondNanos).toNat⟩
    if earlier.kept then some earlier else none

end Instant

end OriginMap.Time
