/-!
# Decimal numbers as text

A decimal is a natural number times a power of ten. It is written with a given
number of places after the point, its digits rounded with halves away from zero;
with as many places as it has, nothing is rounded.
-/

namespace SqlText.Number

/-- The number `coefficient * 10 ^ exponent`. -/
structure Decimal where
  /-- The digits. -/
  coefficient : Nat
  /-- The power of ten of the last digit. -/
  exponent : Int
  deriving DecidableEq, Repr

namespace Decimal

/-- The digits of the number times `10 ^ places`, halves rounded up. -/
def scaledDigits (d : Decimal) (places : Nat) : List Char :=
  match d.exponent + places with
  | .ofNat n => Nat.toDigits 10 d.coefficient ++ List.replicate n '0'
  | .negSucc n => Nat.toDigits 10 ((d.coefficient / Nat.pow 10 n + 5) / 10)

/-- Digits with a point before the last `places` of them, filled up with zeros so
that one digit stands before it. Without places there is no point. -/
def pointed (places : Nat) (digits : List Char) : List Char :=
  let filled := List.replicate (places + 1 - digits.length) '0' ++ digits
  let whole := filled.length - places
  if places = 0 then filled else filled.take whole ++ '.' :: filled.drop whole

/-- How many places the number has after the point. -/
def places (d : Decimal) : Nat := (-d.exponent).toNat

/-- The number in full, without an exponent. -/
def plain (d : Decimal) : List Char :=
  pointed d.places (d.scaledDigits d.places)

/-- A signed number with exactly `places` decimals. The sign of a number that
rounds to zero is dropped. -/
def fixed (negative : Bool) (d : Decimal) (places : Nat) : List Char :=
  let digits := d.scaledDigits places
  (if negative && digits.any (· != '0') then ['-'] else []) ++ pointed places digits

/-- One digit before the point and a signed power of ten after the rest, as in
`1.5e+300`. -/
def scientific (d : Decimal) : List Char :=
  let digits := Nat.toDigits 10 d.coefficient
  let power := d.exponent + (digits.length - 1 : Nat)
  let fraction := digits.drop 1
  digits.take 1 ++ (if fraction.isEmpty then [] else '.' :: fraction) ++
    ['e', if power < 0 then '-' else '+'] ++ Nat.toDigits 10 power.natAbs

end Decimal

end SqlText.Number
