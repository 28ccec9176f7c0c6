import SqlText.Json.NumberText
import SqlText.Number.Binary64

/-!
# JSON numbers

A number without fraction and power is an integer if it fits 64 bits, with sign or
without. Any other number is read in two steps: its leading digits, as many as 64 bits
hold, are rounded to a floating-point number, and that is multiplied or divided by
rounded powers of ten. A number that is too large has no value.
-/

namespace SqlText.Json

open SqlText.Number

/-- The value of a JSON number. -/
inductive Number where
  /-- An integer that fits 64 bits with sign. -/
  | int (n : Int64)
  /-- An integer that fits 64 bits without sign alone. -/
  | large (n : UInt64)
  /-- Any other number. -/
  | float (x : Binary64)
  deriving DecidableEq, Repr

/-- Appends digits to a number until one would need more than 64 bits; says how many
digits were left over. -/
def takeDigits (n : Nat) : List Char → Nat × Nat
  | [] => (n, 0)
  | d :: ds =>
    let next := 10 * n + (d.toNat - '0'.toNat)
    if next < Nat.pow 2 64 then takeDigits next ds else (n, ds.length + 1)

/-- The largest power of ten that a magnitude is multiplied or divided by. -/
def largestPower : Nat := 308

/-- The rank of a rounded power of ten. -/
def powerRank (n : Nat) : Nat := nearestRank (Nat.pow 10 n) 1

/-- Divides a magnitude by a power of ten, in steps if the power is large. -/
def dividedRank (rank power : Nat) : Nat :=
  if power ≤ largestPower then nearestRank (units rank) (units (powerRank power))
  else if rank = 0 then 0
  else dividedRank (nearestRank (units rank) (units (powerRank largestPower)))
    (power - largestPower)
termination_by power
decreasing_by simp only [largestPower] at *; omega

/-- Multiplies a magnitude by a power of ten, unless the product is infinite. -/
def multipliedRank? (rank power : Nat) : Option Nat :=
  if rank = 0 then some 0
  else if power ≤ largestPower then
    let product := nearestRank (units rank * units (powerRank power)) (Nat.pow 2 2148)
    if product < finiteRanks then some product else none
  else none

/-- The number nearest to the leading digits, scaled by a power of ten. -/
def scaledNumber? (negative : Bool) (digits : Nat) (power : Int) : Option Number :=
  let rank := nearestRank digits 1
  let scaled := match power with
    | .ofNat n => multipliedRank? rank n
    | .negSucc n => some (dividedRank rank (n + 1))
  scaled.map fun rank => .float (.ofRank negative rank)

/-- The integer of digits that fit 64 bits. One with a minus sign may need more and is
then the floating-point number nearest to it. Zero with a sign is no integer. -/
def integerNumber (negative : Bool) (n : Nat) : Number :=
  if negative then
    if 0 < n ∧ n ≤ Nat.pow 2 63 then .int (Int64.ofInt (-n)) else .float (.nearest true n 1)
  else
    if n < Nat.pow 2 63 then .int (Int64.ofInt n) else .large n.toUInt64

/-- The value of a number; none if it is too large. -/
def NumberText.value? (t : NumberText) : Option Number :=
  let (digits, left) := takeDigits 0 t.whole
  if t.fraction.isNone ∧ t.power.isNone ∧ left = 0 then some (integerNumber t.negative digits)
  else
    let fraction := t.fraction.getD []
    let (digits, dropped) := takeDigits digits fraction
    scaledNumber? t.negative digits
      (left - (fraction.length - dropped : Nat) + t.power.getD 0)

end SqlText.Json
