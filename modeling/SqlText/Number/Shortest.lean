import SqlText.Number.Binary64
import SqlText.Number.Decimal

/-!
# Shortest decimals

Every decimal strictly nearer to a binary number than to its two neighbours reads
back as that number; the two midpoints do so when the rank is even. The shortest
decimal is the multiple of the largest power of ten in that interval, and of two
such multiples the nearer one. All bounds are exact integers in units of
`10 ^ -1075`, because `2 ^ -1075` is a multiple of that unit.
-/

namespace SqlText.Number

/-- Which of two equally near decimals is chosen. -/
inductive Tie where
  /-- The larger one. -/
  | up
  /-- The one with an even last digit. -/
  | even
  deriving DecidableEq, Repr

/-- The decimals that read back as one binary number, and that number itself. -/
structure ReadBack where
  /-- The midpoint below. -/
  low : Nat
  /-- The number. -/
  value : Nat
  /-- The midpoint above. -/
  high : Nat
  /-- The midpoints themselves read back. -/
  closed : Bool

namespace ReadBack

/-- The interval of a rank other than zero, in units of `10 ^ -1075`. -/
def ofRank (rank : Nat) : ReadBack where
  low := (units (rank - 1) + units rank) * Nat.pow 5 1075
  value := 2 * units rank * Nat.pow 5 1075
  high := (units rank + units (rank + 1)) * Nat.pow 5 1075
  closed := rank % 2 == 0

/-- The decimal reads back as the number. -/
def contains (i : ReadBack) (n : Nat) : Bool :=
  if i.closed then i.low ≤ n && n ≤ i.high else i.low < n && n < i.high

/-- The multiple of `grid` that reads back and is nearest to the number, divided
by `grid`. One of the two multiples around the number reads back if any does. -/
def onGrid? (i : ReadBack) (tie : Tie) (grid : Nat) : Option Nat :=
  let below := i.value / grid
  let past := i.value - below * grid
  let above := below + 1
  match i.contains (below * grid), i.contains (above * grid) with
  | false, false => none
  | true, false => some below
  | false, true => some above
  | true, true =>
    if 2 * past < grid then some below
    else if grid < 2 * past then some above
    else match tie with
      | .up => some above
      | .even => some (if below % 2 = 0 then below else above)

/-- The coarsest grid `10 ^ power` with a multiple that reads back, among the
powers up to the given one. -/
def coarsest (i : ReadBack) (tie : Tie) : Nat → Nat × Nat
  | 0 => (i.value, 0)
  | power + 1 =>
    match i.onGrid? tie (Nat.pow 10 (power + 1)) with
    | some multiple => (multiple, power + 1)
    | none => coarsest i tie power

end ReadBack

/-- The exponent of a power of ten that exceeds the number, as `2 ^ 93 < 10 ^ 28`. -/
def decimalBound (n : Nat) : Nat := (n.log2 + 1) * 28 / 93 + 1

/-- The decimal with the fewest digits that reads back as the magnitude of this
rank; of several the nearest one. -/
def shortest (tie : Tie) (rank : Nat) : Decimal :=
  if rank = 0 then ⟨0, 0⟩
  else
    let i := ReadBack.ofRank rank
    let (multiple, power) := i.coarsest tie (decimalBound i.value)
    ⟨multiple, (power : Int) - 1075⟩

namespace Binary64

private def signed (negative : Bool) (text : List Char) : String :=
  String.ofList (if negative then '-' :: text else text)

/-- The number in plain digits: the shortest decimal, a tie going up, without an
exponent and without a point where there is no fraction. -/
def plainText : Binary64 → String
  | .nan => "NaN"
  | .infinite negative => if negative then "-inf" else "inf"
  | .finite negative rank => signed negative (shortest .up rank).plain

/-- The number in a JSON text: the shortest decimal, a tie going to the even
digit. From `10 ^ -5` up to `10 ^ 16` it is written in full with at least one
decimal, elsewhere with a power of ten. What is not finite is `null`. -/
def jsonText : Binary64 → String
  | .nan | .infinite _ => "null"
  | .finite negative rank =>
    let d := shortest .even rank
    let power := d.exponent + ((Nat.toDigits 10 d.coefficient).length - 1 : Nat)
    if -5 ≤ power ∧ power < 16 then
      let places := max 1 d.places
      signed negative (Decimal.pointed places (d.scaledDigits places))
    else signed negative d.scientific

/-- The number with exactly `places` decimals. The shortest plain decimal is what
is rounded, halves away from zero; what is not finite counts as zero. -/
def fixedPoint (x : Binary64) (places : Nat) : String :=
  match x with
  | .nan | .infinite _ => String.ofList (Decimal.fixed false ⟨0, 0⟩ places)
  | .finite negative rank =>
    String.ofList (Decimal.fixed negative (shortest .up rank) places)

end Binary64

end SqlText.Number
