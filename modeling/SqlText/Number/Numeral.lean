import SqlText.Number.Shortest

/-!
# Numerals

The texts that are accepted as numbers in arguments. An integer is ASCII digits
after at most one sign. A floating-point number may also have a point with digits
on at least one side of it and a power of ten; infinity and what is no number have
names, in letters of either case.
-/

namespace SqlText.Number

/-- The magnitude nearest to a decimal. A decimal whose leading digit stands far
outside the range is decided without computing its power of ten. -/
def Decimal.nearest (negative : Bool) (d : Decimal) : Binary64 :=
  let power := d.exponent + (Nat.toDigits 10 d.coefficient).length
  if d.coefficient = 0 ∨ power < -330 then .zero negative
  else if 310 < power then .infinite negative
  else match d.exponent with
    | .ofNat n => .nearest negative (d.coefficient * Nat.pow 10 n) 1
    | .negSucc n => .nearest negative d.coefficient (Nat.pow 10 (n + 1))

namespace Numeral

/-- A sign at the front, and the rest. -/
def sign (cs : List Char) : Bool × List Char :=
  match cs with
  | '-' :: rest => (true, rest)
  | '+' :: rest => (false, rest)
  | _ => (false, cs)

/-- The integer that a numeral denotes, of any size. -/
def integer? (cs : List Char) : Option Int :=
  let (negative, digits) := sign cs
  if digits.isEmpty || !digits.all Char.isDigit then none
  else
    let n : Int := Nat.ofDigitChars 10 digits 0
    some (if negative then -n else n)

/-- The signed 64-bit integer that a numeral denotes. -/
def int64? (cs : List Char) : Option Int64 := do
  let z ← integer? cs
  if Int64.minValue.toInt ≤ z ∧ z ≤ Int64.maxValue.toInt then some (Int64.ofInt z) else none

/-- The power of ten that ends a numeral; nothing is the power zero. -/
def power? (cs : List Char) : Option Int :=
  match cs with
  | [] => some 0
  | c :: rest => if c = 'e' ∨ c = 'E' then integer? rest else none

/-- The decimal that an unsigned numeral with point and power denotes. -/
def decimal? (cs : List Char) : Option Decimal :=
  let whole := cs.takeWhile Char.isDigit
  let (fraction, rest) :=
    match cs.dropWhile Char.isDigit with
    | '.' :: rest => (rest.takeWhile Char.isDigit, rest.dropWhile Char.isDigit)
    | rest => ([], rest)
  let digits := whole ++ fraction
  if digits.isEmpty then none
  else (power? rest).map fun power => ⟨Nat.ofDigitChars 10 digits 0, power - fraction.length⟩

/-- The floating-point number that a numeral denotes, rounded to nearest. -/
def binary64? (cs : List Char) : Option Binary64 :=
  let (negative, rest) := sign cs
  let word := String.ofList (rest.map Char.toLower)
  if word = "inf" ∨ word = "infinity" then some (.infinite negative)
  else if word = "nan" then some .nan
  else (decimal? rest).map (Decimal.nearest negative)

end Numeral

end SqlText.Number
