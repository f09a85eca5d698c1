import Autocomplete.Json

/-!
The numbers of JSON. One without a point and an exponent is an integer if it fits 64 bits. Any other is
reckoned in floating point: its digits, as far as they fit 64 bits, times or divided by powers of ten.
-/
namespace Autocomplete.Json

/-- The parts of a number: `digits * 10 ^ exponent` is its value. -/
structure Numeral where
  negative : Bool
  digits : List Char
  /-- Whether there is a point or an exponent. -/
  fractional : Bool
  exponent : Int

def digitValue (c : Char) : Nat := c.toNat - 48

/-- The number of the leading digits that fit 64 bits, and how many digits are left over. -/
def leadingDigits : Nat → List Char → Nat × Nat
  | n, [] => (n, 0)
  | n, c :: rest =>
    let more := 10 * n + digitValue c
    if more < 0x10000000000000000 then leadingDigits more rest else (n, rest.length + 1)

/-- A floating point number times a power of ten. A divisor that is too large is split. -/
def timesPowerOfTen? (b : Binary64) (power : Int) : Option Binary64 :=
  if 0 ≤ power then
    if power ≤ 308 then (Binary64.powerOfTen power.toNat).bind b.mul
    else if b.mantissa = 0 then some b
    else none
  else
    let divided (b : Binary64) (n : Int) : Option Binary64 :=
      (Binary64.powerOfTen n.toNat).bind b.div
    if -308 ≤ power then divided b (-power)
    else (divided b 308).bind fun b =>
      if -616 ≤ power then divided b (-power - 308)
      else (divided b 308).bind fun b => if b.mantissa = 0 then some b else none

/-- The value of a number, unless it is too large. -/
def Numeral.value? (m : Numeral) : Option Json :=
  let (digits, dropped) := leadingDigits 0 m.digits
  let isInteger := !m.fractional && dropped = 0 &&
    !(m.negative && (digits = 0 || 0x8000000000000000 < digits))
  if isInteger then some (.int (if m.negative then -(digits : Int) else digits))
  else
    ((Binary64.nearest digits 1).bind fun b => timesPowerOfTen? b (m.exponent + dropped)).map fun b =>
      .decimal (.shortest m.negative b)

/-- A sign before the digits of an exponent. -/
def exponentSign : List Char → Bool × List Char
  | '-' :: rest => (true, rest)
  | '+' :: rest => (false, rest)
  | cs => (false, cs)

/-- Reads an exponent, if there is one. -/
def exponentPart? : List Char → Option (Option Int × List Char)
  | c :: rest =>
    if c = 'e' || c = 'E' then
      let (negative, rest) := exponentSign rest
      let (digits, rest) := rest.span Char.isDigit
      if digits.isEmpty then none else
      let n : Int := (leadingDigits 0 (digits.dropWhile (· == '0'))).1
      some (some (if negative then -n else n), rest)
    else some (none, c :: rest)
  | [] => some (none, [])

/-- Reads the digits behind a point, if there is one. -/
def fractionPart? : List Char → Option (Option (List Char) × List Char)
  | '.' :: rest =>
    let (digits, rest) := rest.span Char.isDigit
    if digits.isEmpty then none else some (some digits, rest)
  | cs => some (none, cs)

/-- Reads a number; a zero in front stands alone. -/
def numeral? (cs : List Char) : Option (Numeral × List Char) := do
  let (negative, rest) := match cs with
    | '-' :: rest => (true, rest)
    | cs => (false, cs)
  let (whole, rest) := rest.span Char.isDigit
  if whole.isEmpty || (whole.head? == some '0' && whole.length != 1) then none
  else
    let (fraction, rest) ← fractionPart? rest
    let (exponent, rest) ← exponentPart? rest
    let decimals := fraction.getD []
    some ({ negative, digits := whole ++ decimals, fractional := fraction.isSome || exponent.isSome
            exponent := exponent.getD 0 - decimals.length }, rest)

end Autocomplete.Json
