/-!
# JSON strings

A JSON string stands in double quotes. A quote, a backslash and the control
characters are written with an escape: a letter where there is one and four
hexadecimal digits otherwise. Any other character is written as it is, but it may be
read from an escape too. Four digits are a code unit of UTF-16, and two of them may
make one character.
-/

namespace SqlText.Json

/-- One character inside a JSON string. -/
def escaped (c : Char) : List Char :=
  match c with
  | '"' => ['\\', '"']
  | '\\' => ['\\', '\\']
  | '\x08' => ['\\', 'b']
  | '\t' => ['\\', 't']
  | '\n' => ['\\', 'n']
  | '\x0c' => ['\\', 'f']
  | '\r' => ['\\', 'r']
  | c =>
    if c.toNat < 0x20 then
      ['\\', 'u', '0', '0', Nat.digitChar (c.toNat / 16), Nat.digitChar (c.toNat % 16)]
    else [c]

/-- A text as a JSON string. -/
def quoted (s : String) : List Char :=
  '"' :: s.toList.flatMap escaped ++ ['"']

/-- What stands for one character in a string, or for half of one. -/
inductive Unit16 where
  /-- A character. -/
  | char (c : Char)
  /-- An escaped code unit. -/
  | unit (n : Nat)

/-- The value of a hexadecimal digit. -/
def hexDigit? (c : Char) : Option Nat :=
  if '0' ≤ c ∧ c ≤ '9' then some (c.toNat - '0'.toNat)
  else if 'a' ≤ c ∧ c ≤ 'f' then some (c.toNat - 'a'.toNat + 10)
  else if 'A' ≤ c ∧ c ≤ 'F' then some (c.toNat - 'A'.toNat + 10)
  else none

/-- The value of four hexadecimal digits. -/
def hexUnit? (a b c d : Char) : Option Nat := do
  let a ← hexDigit? a
  let b ← hexDigit? b
  let c ← hexDigit? c
  let d ← hexDigit? d
  pure (((a * 16 + b) * 16 + c) * 16 + d)

/-- The character that a letter after a backslash stands for. -/
def shortEscape? : Char → Option Char
  | '"' => some '"'
  | '\\' => some '\\'
  | '/' => some '/'
  | 'b' => some '\x08'
  | 'f' => some '\x0c'
  | 'n' => some '\n'
  | 'r' => some '\r'
  | 't' => some '\t'
  | _ => none

/-- The rest of a string whose quote has been read, after what has been read of it. -/
def stringUnits? (done : List Unit16) : List Char → Option (List Unit16 × List Char)
  | [] => none
  | '"' :: rest => some (done.reverse, rest)
  | '\\' :: 'u' :: a :: b :: c :: d :: rest =>
    match hexUnit? a b c d with
    | some n => stringUnits? (.unit n :: done) rest
    | none => none
  | '\\' :: c :: rest =>
    match shortEscape? c with
    | some c => stringUnits? (.char c :: done) rest
    | none => none
  | c :: rest => if c.toNat < 0x20 then none else stringUnits? (.char c :: done) rest

/-- A code unit that is the first half of a pair. -/
def isLeading (n : Nat) : Bool := 0xD800 ≤ n && n < 0xDC00

/-- A code unit that is the second half of a pair. -/
def isTrailing (n : Nat) : Bool := 0xDC00 ≤ n && n < 0xE000

/-- The characters of a string, if no half of a pair stands alone. -/
def joinUnits? : List Unit16 → Option (List Char)
  | [] => some []
  | .char c :: rest => (joinUnits? rest).map (c :: ·)
  | .unit n :: rest =>
    if isLeading n then
      match rest with
      | .unit m :: rest =>
        if isTrailing m then
          (joinUnits? rest).map (Char.ofNat (0x10000 + (n - 0xD800) * 0x400 + (m - 0xDC00)) :: ·)
        else none
      | _ => none
    else if isTrailing n then none
    else (joinUnits? rest).map (Char.ofNat n :: ·)

theorem stringUnits?_length {done us : List Unit16} {cs rest : List Char}
    (h : stringUnits? done cs = some (us, rest)) : rest.length < cs.length := by
  fun_induction stringUnits? done cs with
  | case1 => simp at h
  | case2 => simp_all
  | case3 _ _ _ _ _ _ _ _ ih => have := ih h; simp only [List.length_cons]; omega
  | case4 => simp at h
  | case5 _ _ _ _ _ _ ih => have := ih h; simp only [List.length_cons]; omega
  | case6 => simp at h
  | case7 => simp at h
  | case8 _ _ _ _ _ _ _ ih => have := ih h; simp only [List.length_cons]; omega

end SqlText.Json
