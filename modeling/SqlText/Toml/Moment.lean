/-!
# TOML dates and times

A date, a time of day, or both, and then also the distance from universal time. Each
field has its fixed number of digits and its range, the days that of their month.
-/

namespace SqlText.Toml

/-- The value of digits, if there are exactly as many as wanted. -/
def digits? (count : Nat) (cs : List Char) : Option Nat :=
  if cs.length = count ∧ cs.all Char.isDigit then some (Nat.ofDigitChars 10 cs 0) else none

/-- The days of a month. -/
def daysOf (year month : Nat) : Nat :=
  if month = 2 then
    if year % 4 = 0 ∧ (year % 100 ≠ 0 ∨ year % 400 = 0) then 29 else 28
  else if month = 4 ∨ month = 6 ∨ month = 9 ∨ month = 11 then 30
  else 31

/-- A date: year, month and day. -/
def isDate (cs : List Char) : Bool :=
  match cs.splitOn '-' with
  | [y, m, d] =>
    match digits? 4 y, digits? 2 m, digits? 2 d with
    | some y, some m, some d => 1 ≤ m && m ≤ 12 && 1 ≤ d && d ≤ daysOf y m
    | _, _, _ => false
  | _ => false

/-- Hours and minutes. -/
def isHourMinute (h m : List Char) : Bool :=
  match digits? 2 h, digits? 2 m with
  | some h, some m => h ≤ 23 && m ≤ 59
  | _, _ => false

/-- Seconds, with a fraction or without. -/
def isSeconds (cs : List Char) : Bool :=
  match cs.splitOn '.' with
  | [s] => (digits? 2 s).any (· ≤ 60)
  | [s, f] => (digits? 2 s).any (· ≤ 60) && !f.isEmpty && f.all Char.isDigit
  | _ => false

/-- A time of day; the seconds may be missing. -/
def isTime (cs : List Char) : Bool :=
  match cs.splitOn ':' with
  | [h, m] => isHourMinute h m
  | [h, m, s] => isHourMinute h m && isSeconds s
  | _ => false

/-- A time of day and its distance from universal time, if that is given. -/
def isZonedTime (cs : List Char) : Bool :=
  let time := cs.takeWhile fun c => c.isDigit || c = ':' || c = '.'
  isTime time &&
    match cs.drop time.length with
    | [] | ['Z'] | ['z'] => true
    | sign :: offset =>
      (sign = '+' || sign = '-') &&
        match offset.splitOn ':' with
        | [h, m] => isHourMinute h m
        | _ => false

/-- A date, a time of day, or both with a separator between them. -/
def isMoment (cs : List Char) : Bool :=
  isDate cs || isTime cs ||
    (isDate (cs.take 10) &&
      match cs.drop 10 with
      | c :: time => (c = 'T' || c = 't' || c = ' ') && isZonedTime time
      | [] => false)

end SqlText.Toml
