import SuiteRunner.Decimal.Binary64

/-!
# Durations

A span of time in whole nanoseconds. Milliseconds are rounded down. Seconds are shown
with two decimals, of the double that the seconds and the rest add up to.
-/

namespace SuiteRunner.Run

structure Duration where
  nanos : Nat
  deriving DecidableEq, Repr

namespace Duration

def zero : Duration := ⟨0⟩

def ofSeconds (seconds : Nat) : Duration := ⟨seconds * 1000000000⟩

def ofMillis (millis : Nat) : Duration := ⟨millis * 1000000⟩

def ofMicros (micros : Nat) : Duration := ⟨micros * 1000⟩

def millis (duration : Duration) : Nat := duration.nanos / 1000000

/-- The milliseconds as a number of 64 bits, the largest one if they do not fit. -/
def millis64 (duration : Duration) : Nat := min duration.millis (UInt64.size - 1)

open Decimal (Binary64)

def nanosPerSecond : Nat := 1000000000

/-- The double nearest to the sum of two doubles. -/
def sum? (a b : Binary64) : Option Binary64 :=
  Binary64.nearest? (a.numerator * b.denominator + b.numerator * a.denominator)
    (a.denominator * b.denominator)

/-- The duration in seconds, as a double. -/
def seconds? (duration : Duration) : Option Binary64 := do
  let whole ← Binary64.nearest? (duration.nanos / nanosPerSecond) 1
  let rest ← Binary64.nearest? (duration.nanos % nanosPerSecond) nanosPerSecond
  sum? whole rest

def secondsText (duration : Duration) : String :=
  match duration.seconds? with
  | some seconds => seconds.twoPlaces
  | none => "inf"

end Duration

end SuiteRunner.Run
