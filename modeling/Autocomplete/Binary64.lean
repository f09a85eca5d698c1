import Autocomplete.Rounding

/-!
Floating point numbers of 64 bits without their sign, as exact multiples of powers of two. Every
operation yields the number nearest to the exact result, or nothing if that is too large.
-/
namespace Autocomplete

/-- The number `mantissa * 2 ^ exponent`. The mantissa has 53 bits, or fewer at the least exponent. -/
structure Binary64 where
  mantissa : Nat
  exponent : Int
  deriving DecidableEq, Repr

namespace Binary64

/-- The least mantissa of 53 bits. -/
def leastFull : Nat := 0x10000000000000

def leastExponent : Int := -1074

def greatestExponent : Int := 971

/-- The quotient of two integers times a power of two, as one quotient. -/
def scaled (num den : Nat) (power : Int) : Nat × Nat :=
  if 0 ≤ power then (num <<< power.toNat, den) else (num, den <<< (-power).toNat)

/-- The number nearest to a quotient. -/
def nearest (num den : Nat) : Option Binary64 :=
  let width : Int := (num.log2 : Int) - den.log2
  let low := max (width - 53) leastExponent
  let quotient (exponent : Int) : Nat × Nat := scaled num den (-exponent)
  let exponent := if (quotient low).1 / (quotient low).2 < 2 * leastFull then low else low + 1
  let mantissa := roundedQuotient (quotient exponent).1 (quotient exponent).2
  let b : Binary64 :=
    if mantissa = 2 * leastFull then ⟨leastFull, exponent + 1⟩ else ⟨mantissa, exponent⟩
  if b.exponent ≤ greatestExponent then some b else none

def mul (a b : Binary64) : Option Binary64 :=
  let (num, den) := scaled (a.mantissa * b.mantissa) 1 (a.exponent + b.exponent)
  nearest num den

def div (a b : Binary64) : Option Binary64 :=
  let (num, den) := scaled a.mantissa b.mantissa (a.exponent - b.exponent)
  nearest num den

/-- A power of ten; the greatest one that is not too large is the 308th. -/
def powerOfTen (n : Nat) : Option Binary64 := nearest (Nat.pow 10 n) 1

/-- The interval of the quotients to which a number is nearest, and the number itself, all in quarters
of the last bit of the mantissa. Below a power of two the numbers are closer together. -/
def interval (b : Binary64) : Nat × Nat × Nat :=
  let below := if b.mantissa = leastFull && leastExponent < b.exponent then 1 else 2
  (4 * b.mantissa - below, 4 * b.mantissa, 4 * b.mantissa + 2)

/-- A quotient halfway between two numbers is nearest to the one with an even mantissa. -/
def hasEnds (b : Binary64) : Bool := b.mantissa % 2 == 0

end Binary64
end Autocomplete
