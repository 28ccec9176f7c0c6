/-!
# Placeholders

A template is plain text with markers. A marker names the kind of its argument:
six kinds are written with a letter, and a fixed-point number may carry its
number of decimals, as in `?2f`.
-/

namespace SqlText

/-- What a marker asks of its argument. -/
inductive Placeholder where
  /-- `?n`: the name of a table or column. -/
  | name
  /-- `?s`: a quoted string. -/
  | string
  /-- `?i`: an integer. -/
  | integer
  /-- `?f`, `?2f`: a fixed-point number with this many decimals. -/
  | float (precision : UInt32)
  /-- `?a`: a parenthesized list of strings. -/
  | set
  /-- `?u`: assignments of strings to columns. -/
  | fields
  /-- `?p`: text that is taken as it stands. -/
  | raw
  deriving DecidableEq, Repr

namespace Placeholder

/-- The kind that a marker letter stands for. -/
def ofLetter? : Char → Option Placeholder
  | 'n' => some .name
  | 's' => some .string
  | 'i' => some .integer
  | 'a' => some .set
  | 'u' => some .fields
  | 'p' => some .raw
  | _ => none

/-- The shortest spelling of a marker: no decimals are written as no digits. -/
def marker : Placeholder → String
  | .name => "?n"
  | .string => "?s"
  | .integer => "?i"
  | .float precision => if precision = 0 then "?f" else s!"?{precision.toNat}f"
  | .set => "?a"
  | .fields => "?u"
  | .raw => "?p"

end Placeholder

end SqlText
