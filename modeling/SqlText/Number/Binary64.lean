/-!
# Binary floating-point numbers

Every finite magnitude of the 64-bit binary format is a multiple of `2 ^ -1074`,
and the format's words count the magnitudes in increasing order. So a finite
number here is a sign and the rank of its magnitude, the exact value is a natural
number of units, and rounding is the search for the nearest rank.
-/

namespace SqlText.Number

/-- How many finite magnitudes there are; this rank itself stands for infinity. -/
def finiteRanks : Nat := 2047 * Nat.pow 2 52

/-- A 64-bit binary floating-point number. -/
inductive Binary64 where
  /-- Not a number. -/
  | nan
  /-- Beyond every finite number, above or below. -/
  | infinite (negative : Bool)
  /-- A sign and the rank of the magnitude. Zero has rank zero and either sign. -/
  | finite (negative : Bool) (rank : Fin finiteRanks)
  deriving DecidableEq, Repr

/-- The power of two by which the significand of this rank is scaled. -/
def scale (rank : Nat) : Nat := rank / Nat.pow 2 52 - 1

/-- The magnitude of this rank in units of `2 ^ -1074`. -/
def units (rank : Nat) : Nat := (rank - scale rank * Nat.pow 2 52) * Nat.pow 2 (scale rank)

/-- The quotient rounded to the nearest integer, a half to the even one. -/
def divToEven (num den : Nat) : Nat :=
  let q := num / den
  let r := num % den
  if 2 * r < den then q else if den < 2 * r then q + 1 else q + q % 2

/-- The rank whose magnitude is nearest to the quotient, of two equally near ones
the even one. From `finiteRanks` on the quotient is too large. -/
def nearestRank (num den : Nat) : Nat :=
  let e := (num * Nat.pow 2 1074 / den).log2 - 52
  divToEven (num * Nat.pow 2 1074) (den * Nat.pow 2 e) + e * Nat.pow 2 52

namespace Binary64

/-- The number of a sign and a rank; infinity when there is no such rank. -/
def ofRank (negative : Bool) (rank : Nat) : Binary64 :=
  if h : rank < finiteRanks then .finite negative ⟨rank, h⟩ else .infinite negative

/-- Zero, with a sign. -/
def zero (negative : Bool) : Binary64 := .ofRank negative 0

/-- The number nearest to a signed quotient. -/
def nearest (negative : Bool) (num den : Nat) : Binary64 :=
  ofRank negative (nearestRank num den)

/-- The number nearest to an integer. -/
def ofInt (z : Int) : Binary64 := nearest (z < 0) z.natAbs 1

/-- The sign; a number that is none has no sign. -/
def isNegative : Binary64 → Bool
  | .nan => false
  | .infinite negative => negative
  | .finite negative _ => negative

/-- Neither infinite nor not a number. -/
def isFinite : Binary64 → Bool
  | .finite .. => true
  | _ => false

/-- The integer part, without the fraction; numbers outside the signed 64-bit
range go to its nearest end and what is no number goes to zero. -/
def truncated : Binary64 → Int64
  | .nan => 0
  | .infinite negative => if negative then Int64.minValue else Int64.maxValue
  | .finite negative rank =>
    let whole : Int := units rank / Nat.pow 2 1074
    Int64.ofIntClamp (if negative then -whole else whole)

/-- Reads the 64-bit word of a number: a sign bit above the rank. -/
def ofBits (word : UInt64) : Binary64 :=
  let negative := Nat.pow 2 63 ≤ word.toNat
  let rank := word.toNat % Nat.pow 2 63
  if rank ≤ finiteRanks then ofRank negative rank else .nan

/-- The 64-bit word of a number. -/
def toBits : Binary64 → UInt64
  | .nan => 0x7FF8000000000000
  | .infinite negative => word negative finiteRanks
  | .finite negative rank => word negative rank
where
  /-- A sign bit above a rank. -/
  word (negative : Bool) (rank : Nat) : UInt64 :=
    ((if negative then Nat.pow 2 63 else 0) + rank).toUInt64

/-- Widens the 32-bit word of a single-precision number, whose magnitudes are
multiples of `2 ^ -149`. -/
def ofSingleBits (word : UInt32) : Binary64 :=
  let negative := Nat.pow 2 31 ≤ word.toNat
  let rank := word.toNat % Nat.pow 2 31
  let step := rank / Nat.pow 2 23 - 1
  if rank < 255 * Nat.pow 2 23 then
    nearest negative ((rank - step * Nat.pow 2 23) * Nat.pow 2 step) (Nat.pow 2 149)
  else if rank = 255 * Nat.pow 2 23 then .infinite negative
  else .nan

end Binary64

end SqlText.Number
