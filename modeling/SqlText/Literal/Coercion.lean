import SqlText.Number.Numeral
import SqlText.Text.Blank
import SqlText.Value

/-!
# Coercion to numbers

Which values count as an integer and which as a floating-point number. A strict builder
takes numbers and texts that are numerals. A lenient one takes every value but a list
or a map, and goes on with zero where there is no number.
-/

namespace SqlText

open Number (Binary64 Numeral.int64? Numeral.binary64?)

namespace Literal

/-- A number, if it is finite. -/
def finite? (x : Binary64) : Option Binary64 :=
  if x.isFinite then some x else none

/-- The finite number that a text denotes, blanks around it ignored. -/
def finiteText? (s : String) : Option Binary64 :=
  (Numeral.binary64? (Text.trimmed s.toList)).bind finite?

/-- The integer that a text denotes, blanks around it ignored. -/
def intText? (s : String) : Option Int64 :=
  Numeral.int64? (Text.trimmed s.toList)

/-- A strict integer: an integer, or a text that denotes one. -/
def strictInt? : Value → Option Int64
  | .int n => some n
  | .str s => intText? s
  | _ => none

/-- A lenient integer: every value but a list or a map. Fractions are cut off, and a
text that denotes no number is zero. -/
def lenientInt? : Value → Option Int64
  | .null => some 0
  | .bool b => some (if b then 1 else 0)
  | .int n => some n
  | .float x => some x.truncated
  | .str s => some ((intText? s).getD (((finiteText? s).map Binary64.truncated).getD 0))
  | .list _ | .map _ => none

/-- A strict number: an integer, a finite number, or a text that denotes one. -/
def strictFloat? : Value → Option Binary64
  | .int n => some (.ofInt n.toInt)
  | .float x => finite? x
  | .str s => finiteText? s
  | _ => none

/-- A lenient number: every value but a list or a map. What is not a finite number
is zero. -/
def lenientFloat? : Value → Option Binary64
  | .null => some (.zero false)
  | .bool b => some (.ofInt (if b then 1 else 0))
  | .int n => some (.ofInt n.toInt)
  | .float x => some ((finite? x).getD (.zero false))
  | .str s => some ((finiteText? s).getD (.zero false))
  | .list _ | .map _ => none

end Literal

end SqlText
