/-! Division rounded to the nearest integer. -/
namespace Autocomplete

/-- A quotient rounded to the nearest integer, a half to the even one. -/
def roundedQuotient (num den : Nat) : Nat :=
  let q := num / den
  let r := num % den
  if 2 * r < den then q
  else if den < 2 * r then q + 1
  else q + q % 2

end Autocomplete
