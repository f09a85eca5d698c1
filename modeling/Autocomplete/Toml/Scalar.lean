import Autocomplete.Toml.Value

/-!
TOML values that are written without brackets or quotes: booleans, numbers and times. Each is a run of
token characters; only a date and a time may have a blank between them.
-/
namespace Autocomplete.Toml

/-- The digits of a number, of which single underscores may stand between two. -/
def groupedDigits? (isDigit : Char → Bool) : List Char → Option (List Char)
  | [] => none
  | [c] => if isDigit c then some [c] else none
  | c :: '_' :: rest =>
    if isDigit c then (groupedDigits? isDigit rest).map (c :: ·) else none
  | c :: rest => if isDigit c then (groupedDigits? isDigit rest).map (c :: ·) else none

/-- The value of a digit of any base up to sixteen. -/
def digitValue (c : Char) : Nat :=
  if c.isDigit then c.toNat - '0'.toNat
  else if c.isLower then c.toNat - 'a'.toNat + 10
  else c.toNat - 'A'.toNat + 10

def isHexDigit (c : Char) : Bool :=
  c.isDigit || ('a' ≤ c && c ≤ 'f') || ('A' ≤ c && c ≤ 'F')

def isOctalDigit (c : Char) : Bool := '0' ≤ c && c ≤ '7'

def isBinaryDigit (c : Char) : Bool := c == '0' || c == '1'

def numberOf (base : Nat) (digits : List Char) : Nat :=
  digits.foldl (fun n c => n * base + digitValue c) 0

/-- Integers have 64 bits with a sign. -/
def integer? (n : Int) : Option Value :=
  if -0x8000000000000000 ≤ n ∧ n ≤ 0x7fffffffffffffff then some (.integer n) else none

def unsigned? (base : Nat) (isDigit : Char → Bool) (digits : List Char) : Option Value :=
  (groupedDigits? isDigit digits).bind fun ds => integer? (numberOf base ds)

/-- The sign in front of a number, and the rest. -/
def splitSign : List Char → Bool × List Char
  | '-' :: rest => (true, rest)
  | '+' :: rest => (false, rest)
  | cs => (false, cs)

/-- Decimal digits without a needless zero in front. -/
def plainDigits? (cs : List Char) : Option (List Char) :=
  match groupedDigits? Char.isDigit cs with
  | some ds => if ds.length > 1 && ds.head? == some '0' then none else some ds
  | none => none

/-- Whether `digits * 10 ^ exponent` rounds to a finite number of 64 bits. -/
def isFinite (digits : List Char) (exponent : Int) : Bool :=
  let n := numberOf 10 digits
  let size := (Nat.toDigits 10 n).length + exponent
  let limit := (1 <<< 1024) - (1 <<< 970)
  if n = 0 || size < 300 then true
  else if 320 < size then false
  else if 0 ≤ exponent then n * Nat.pow 10 exponent.toNat < limit
  else n < limit * Nat.pow 10 (-exponent).toNat

/-- The exponent of a number and whether it is well formed; a number without one has exponent zero. -/
def exponent? (cs : List Char) : Option Int :=
  match cs with
  | [] => some 0
  | e :: rest =>
    if e == 'e' || e == 'E' then
      let (negative, digits) := splitSign rest
      (groupedDigits? Char.isDigit digits).map fun ds =>
        let n : Int := numberOf 10 ds
        if negative then -n else n
    else none

/-- A number with a fraction or an exponent; too large a positive one is refused. -/
def float? (negative : Bool) (whole rest : List Char) : Option Value :=
  let (fraction?, rest) : Option (List Char) × List Char := match rest with
    | '.' :: rest =>
      let (digits, rest) := rest.span fun c => c.isDigit || c == '_'
      (groupedDigits? Char.isDigit digits, rest)
    | _ => (some [], rest)
  match fraction?, exponent? rest with
  | some fraction, some exponent =>
    if negative || isFinite (whole ++ fraction) (exponent - fraction.length) then some .float
    else none
  | _, _ => none

/-- A decimal number with or without a sign. -/
def decimal? (cs : List Char) : Option Value :=
  let (negative, body) := splitSign cs
  if body == ['i', 'n', 'f'] || body == ['n', 'a', 'n'] then some .float
  else
    let (whole, rest) := body.span fun c => c.isDigit || c == '_'
    match plainDigits? whole with
    | some ds =>
      if rest.isEmpty then
        let n : Int := numberOf 10 ds
        integer? (if negative then -n else n)
      else float? negative ds rest
    | none => none

/-- A number of exactly so many digits, and the rest. -/
def fixedNumber? (count : Nat) (cs : List Char) : Option (Nat × List Char) :=
  let digits := cs.take count
  if digits.length = count && digits.all Char.isDigit
  then some (numberOf 10 digits, cs.drop count) else none

def isLeapYear (year : Nat) : Bool :=
  year % 4 == 0 && (year % 100 != 0 || year % 400 == 0)

def daysInMonth (year month : Nat) : Nat :=
  if month = 2 then (if isLeapYear year then 29 else 28)
  else if month = 4 || month = 6 || month = 9 || month = 11 then 30 else 31

/-- The rest after a date. -/
def afterDate? (cs : List Char) : Option (List Char) := do
  let (year, cs) ← fixedNumber? 4 cs
  let '-' :: cs := cs | none
  let (month, cs) ← fixedNumber? 2 cs
  let '-' :: cs := cs | none
  let (day, cs) ← fixedNumber? 2 cs
  if 1 ≤ month && month ≤ 12 && 1 ≤ day && day ≤ daysInMonth year month then some cs else none

/-- The rest after hours and minutes. -/
def afterMinutes? (cs : List Char) : Option (List Char) := do
  let (hour, cs) ← fixedNumber? 2 cs
  let ':' :: cs := cs | none
  let (minute, cs) ← fixedNumber? 2 cs
  if hour ≤ 23 && minute ≤ 59 then some cs else none

/-- The rest after a time of day, whose seconds may have a fraction. -/
def afterTime? (cs : List Char) : Option (List Char) := do
  let ':' :: cs ← afterMinutes? cs | none
  let (second, cs) ← fixedNumber? 2 cs
  if 60 < second then none
  else match cs with
    | '.' :: c :: rest => if c.isDigit then some (rest.dropWhile Char.isDigit) else none
    | '.' :: [] => none
    | _ => some cs

/-- Whether a text is nothing or the offset of a time zone. -/
def isOffset : List Char → Bool
  | [] => true
  | ['Z'] => true
  | ['z'] => true
  | '+' :: rest => afterMinutes? rest == some []
  | '-' :: rest => afterMinutes? rest == some []
  | _ => false

/-- Whether a text is a date, a time of day, or both. -/
def isDatetime (cs : List Char) : Bool :=
  match afterDate? cs with
  | some [] => true
  | some (c :: rest) =>
    (c == 'T' || c == 't' || c == ' ') && ((afterTime? rest).map isOffset).getD false
  | none => afterTime? cs == some []

/-- The value that a token stands for. -/
def scalar? (token : List Char) : Option Value :=
  match token with
  | ['t', 'r', 'u', 'e'] => some (.boolean true)
  | ['f', 'a', 'l', 's', 'e'] => some (.boolean false)
  | '0' :: 'x' :: digits => unsigned? 16 isHexDigit digits
  | '0' :: 'o' :: digits => unsigned? 8 isOctalDigit digits
  | '0' :: 'b' :: digits => unsigned? 2 isBinaryDigit digits
  | _ => if isDatetime token then some .datetime else decimal? token

/-- The characters that tokens are made of. -/
def isTokenChar (c : Char) : Bool :=
  c.isAlphanum || c == '+' || c == '-' || c == '_' || c == '.' || c == ':'

/-- The token at the start of a text and the rest. A date goes on after a blank if digits follow. -/
def splitToken (cs : List Char) : List Char × List Char :=
  let (token, rest) := cs.span isTokenChar
  match rest with
  | ' ' :: c :: _ =>
    if c.isDigit && afterDate? token == some [] then
      let (time, rest) := (rest.drop 1).span isTokenChar
      (token ++ ' ' :: time, rest)
    else (token, rest)
  | _ => (token, rest)

end Autocomplete.Toml
