import Autocomplete.Binary64

/-!
Decimal texts of floating point numbers: the fewest digits that read back as the number, and of those
the nearest ones.
-/
namespace Autocomplete

/-- The number `digits * 10 ^ exponent` with a sign, which zero has too. -/
structure Decimal where
  negative : Bool
  digits : Nat
  exponent : Int
  deriving DecidableEq, Repr, Inhabited

namespace Decimal

/-- The multiple of a power of ten that is nearest to a number among the two that enclose it, if any of
them reads back as the number. -/
def onGrid? (b : Binary64) (power : Int) : Option Nat :=
  let (low, middle, high) := b.interval
  let (unit, den) := Binary64.scaled 1 1 (b.exponent - 2)
  let (unit, den) :=
    if 0 ≤ power then (unit, den * Nat.pow 10 power.toNat) else (unit * Nat.pow 10 (-power).toNat, den)
  let fits (n : Nat) : Bool :=
    if b.hasEnds then low * unit ≤ n * den && n * den ≤ high * unit
    else low * unit < n * den && n * den < high * unit
  let below := middle * unit / den
  let nearer := roundedQuotient (middle * unit) den
  if fits nearer then some nearer
  else if fits below then some below
  else if fits (below + 1) then some (below + 1)
  else none

/-- Tries finer and finer powers of ten. -/
def search (b : Binary64) : Nat → Int → Nat × Int
  | 0, power => ((onGrid? b power).getD 0, power)
  | fuel + 1, power =>
    match onGrid? b power with
    | some n => (n, power)
    | none => search b fuel (power - 1)

/-- The shortest decimal that reads back as a number; 17 digits are always enough. -/
def shortest (negative : Bool) (b : Binary64) : Decimal :=
  if b.mantissa = 0 then ⟨negative, 0, 0⟩ else
  let (num, den) := Binary64.scaled b.mantissa 1 b.exponent
  let width : Int := (Nat.toDigits 10 num).length - ((Nat.toDigits 10 den).length : Int)
  let (digits, exponent) := search b 17 width
  ⟨negative, digits, exponent⟩

/-- Which numbers are written without an exponent: those with so many zeros at most right after the
point, and with so many digits at most before it. -/
structure Form where
  zerosBehind : Nat
  digitsBefore : Nat

def Form.isPositional (form : Form) (point : Int) : Bool :=
  -(form.zerosBehind : Int) ≤ point && point ≤ form.digitsBefore

/-- The digits without trailing zeros, and the number of digits that stand before the point. -/
def significant (d : Decimal) : List Char × Int :=
  let digits := Nat.toDigits 10 d.digits
  ((digits.reverse.dropWhile (· == '0')).reverse, digits.length + d.exponent)

/-- The text of a number, which always has a point or an exponent. -/
def text (form : Form) (d : Decimal) : String :=
  let sign := if d.negative then "-" else ""
  if d.digits = 0 then sign ++ "0.0" else
  let (digits, point) := d.significant
  let zeros (n : Int) : List Char := List.replicate n.toNat '0'
  let body :=
    if form.isPositional point then
      if (digits.length : Int) ≤ point then digits ++ zeros (point - digits.length) ++ ['.', '0']
      else if 0 < point then digits.take point.toNat ++ ['.'] ++ digits.drop point.toNat
      else ['0', '.'] ++ zeros (-point) ++ digits
    else
      let fraction := if digits.length = 1 then [] else '.' :: digits.drop 1
      let mark := if 0 < point then ['e', '+'] else ['e']
      digits.take 1 ++ fraction ++ mark ++ (toString (point - 1)).toList
  sign ++ String.ofList body

end Decimal
end Autocomplete
