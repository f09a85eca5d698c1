import Autocomplete.Rounding

/-!
Spans of time as whole nanoseconds.
-/
namespace Autocomplete

/-- A number of nanoseconds. -/
abbrev Duration := Nat

namespace Duration

def perMillisecond : Nat := 1000000

def perSecond : Nat := 1000000000

def ofMilliseconds (ms : Nat) : Duration := ms * perMillisecond

/-- The whole milliseconds in a duration. -/
def milliseconds (d : Duration) : Nat := d / perMillisecond

/-- The least number of whole milliseconds that lasts as long. -/
def ceilMilliseconds (d : Duration) : Nat := (d + (perMillisecond - 1)) / perMillisecond

/-- Whole seconds and the rest, added as floating point numbers. -/
def toSeconds (d : Duration) : Float :=
  Float.ofNat (d / perSecond) + Float.ofNat (d % perSecond) / 1e9

/-- The nearest whole number of nanoseconds to a nonnegative number of seconds, taken exactly. -/
def ofSeconds (seconds : Float) : Duration :=
  let bits := seconds.toBits.toNat
  let exponent := (bits >>> 52) % 2048
  let fraction := bits % (1 <<< 52)
  let mantissa := if exponent = 0 then fraction else fraction + (1 <<< 52)
  let scale := max exponent 1
  if 1075 ≤ scale then (mantissa <<< (scale - 1075)) * perSecond
  else roundedQuotient (mantissa * perSecond) (1 <<< (1075 - scale))

end Duration
end Autocomplete
