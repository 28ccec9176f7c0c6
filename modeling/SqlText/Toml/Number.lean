import SqlText.Json.Quoted
import SqlText.Number.Numeral
import SqlText.Toml.Basic

/-!
# TOML numbers

Integers in four bases and floating-point numbers, with underscores between digits.
A word is told to be a number by its outline. Its value is a second matter: an integer
needs digits of its base and 128 bits, a floating-point number must be finite or one of
the named ones, and a number that fails in this has no value.
-/

namespace SqlText.Toml

open SqlText.Number

/-- The text without its underscores. -/
def ungrouped (cs : List Char) : List Char := cs.filter (· != '_')

/-- Every underscore stands between two digits of a class. -/
def isGrouped (isDigit : Char → Bool) (cs : List Char) : Bool :=
  let groups := cs.splitOn '_'
  groups.tail.all (fun g => g.head?.any isDigit) &&
    groups.dropLast.all fun g => g.getLast?.any isDigit

/-- A digit in base sixteen. -/
def isHexDigit (c : Char) : Bool :=
  c.isDigit || ('a' ≤ c && c ≤ 'f') || ('A' ≤ c && c ≤ 'F')

/-- A value of 128 bits, with sign or without. -/
def fits (z : Int) : Bool := -Int.pow 2 127 ≤ z && z < Int.pow 2 128

/-- An integer in a base other than ten, without the letters that tell the base. If it has
no digits, it has no value. -/
def inBase? (base : Nat) (isDigit : Char → Bool) (cs : List Char) : Option Item :=
  let digits := ungrouped cs
  if digits.all isDigit && isGrouped isDigit cs then
    let value : Option Int := do
      let values ← digits.mapM Json.hexDigit?
      if values.isEmpty then none
      else some (values.foldl (fun n d => base * n + d) 0 : Nat)
    some (.integer (value.filter fits))
  else none

/-- Digits and underscores, with at least one digit. -/
def isRun (cs : List Char) : Bool :=
  cs.all (fun c => c.isDigit || c = '_') && cs.any Char.isDigit

/-- The outline of a number with a fraction or a power of ten, without sign. A zero at
the front stands alone before the point. -/
def isFloat (cs : List Char) : Bool :=
  let isPower (c : Char) : Bool := c = 'e' || c = 'E'
  let mantissa := cs.takeWhile (!isPower ·)
  let power := cs.dropWhile (!isPower ·)
  let whole := mantissa.takeWhile (· != '.')
  let fraction := mantissa.dropWhile (· != '.')
  isRun whole && !(whole.head? = some '0' && 1 < (ungrouped whole).length) &&
    (fraction.isEmpty || isRun (fraction.drop 1)) &&
    (power.isEmpty || isRun (Numeral.sign (power.drop 1)).2)

/-- The outline of an integer in base ten, without sign. A zero at the front stands
alone. After an underscore anything but a space may follow. -/
def isInteger (cs : List Char) : Bool :=
  match cs.dropWhile Char.isDigit with
  | [] => cs = ['0'] || cs.head?.any (· != '0')
  | c :: rest => c = '_' && cs.head? != some '0' && !rest.contains ' '

/-- A number in base ten. -/
def inBaseTen? (cs : List Char) : Option Item :=
  let (negative, rest) := Numeral.sign cs
  if rest = ['i', 'n', 'f'] then some (.float (some (.infinite negative)))
  else if rest = ['n', 'a', 'n'] then some (.float (some .nan))
  else if rest.any fun c => c = '.' || c = 'e' || c = 'E' then
    if isFloat rest && isGrouped Char.isDigit cs then
      let value := (Numeral.decimal? (ungrouped rest)).map (Decimal.nearest negative)
      some (.float (value.filter Binary64.isFinite))
    else none
  else if isInteger rest && isGrouped isHexDigit cs then
    some (.integer ((Numeral.integer? (ungrouped cs)).filter fits))
  else none

/-- A number in any base. -/
def number? (cs : List Char) : Option Item :=
  match cs with
  | '0' :: 'x' :: rest => inBase? 16 isHexDigit rest
  | '0' :: 'o' :: rest => inBase? 8 (fun c => '0' ≤ c && c ≤ '7') rest
  | '0' :: 'b' :: rest => inBase? 2 (fun c => c = '0' || c = '1') rest
  | cs => inBaseTen? cs

end SqlText.Toml
