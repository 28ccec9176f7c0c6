import SqlText.Number.Numeral

/-!
# The text of JSON numbers

A number is digits with an optional minus sign before them, then an optional fraction
and an optional power of ten. What stands after its last character is left to the
reader of the text.
-/

namespace SqlText.Json

/-- A JSON number as it is written. -/
structure NumberText where
  /-- There is a minus sign. -/
  negative : Bool
  /-- The digits before the point. -/
  whole : List Char
  /-- The digits after the point, if there is one. -/
  fraction : Option (List Char)
  /-- The power of ten, if there is one. -/
  power : Option Int
  deriving DecidableEq, Repr

/-- A fraction: at least one digit after a point. -/
def fraction? (cs : List Char) : Option (Option (List Char) × List Char) :=
  match cs with
  | '.' :: rest =>
    let digits := rest.takeWhile Char.isDigit
    if digits.isEmpty then none else some (some digits, rest.dropWhile Char.isDigit)
  | rest => some (none, rest)

/-- A power of ten: a letter, a sign that may be missing, and at least one digit. -/
def exponent? (cs : List Char) : Option (Option Int × List Char) :=
  match cs with
  | c :: rest =>
    if c = 'e' ∨ c = 'E' then
      let (negative, rest) := Number.Numeral.sign rest
      let digits := rest.takeWhile Char.isDigit
      let n : Int := Nat.ofDigitChars 10 digits 0
      if digits.isEmpty then none
      else some (some (if negative then -n else n), rest.dropWhile Char.isDigit)
    else some (none, c :: rest)
  | [] => some (none, [])

/-- A number whose sign has been read, and the text after it. More than one digit must not
begin with zero. -/
def unsigned? (negative : Bool) (cs : List Char) : Option (NumberText × List Char) :=
  let whole := cs.takeWhile Char.isDigit
  if whole.isEmpty || (whole.head? == some '0' && 1 < whole.length) then none
  else do
    let (fraction, rest) ← fraction? (cs.dropWhile Char.isDigit)
    let (power, rest) ← exponent? rest
    pure (⟨negative, whole, fraction, power⟩, rest)

/-- A number and the text after it. -/
def number? : List Char → Option (NumberText × List Char)
  | '-' :: cs => unsigned? true cs
  | cs => unsigned? false cs

theorem fraction?_length {f : Option (List Char)} {cs rest : List Char}
    (h : fraction? cs = some (f, rest)) : rest.length ≤ cs.length := by
  unfold fraction? at h
  split at h
  · rename_i tail
    have := (List.dropWhile_sublist Char.isDigit (l := tail)).length_le
    dsimp only at h
    split at h
    · simp at h
    · simp only [Option.some.injEq, Prod.mk.injEq] at h
      obtain ⟨-, rfl⟩ := h
      simp only [List.length_cons]
      omega
  · simp_all

theorem sign_length (cs : List Char) : (Number.Numeral.sign cs).2.length ≤ cs.length := by
  unfold Number.Numeral.sign
  split <;> simp

theorem exponent?_length {p : Option Int} {cs rest : List Char}
    (h : exponent? cs = some (p, rest)) : rest.length ≤ cs.length := by
  unfold exponent? at h
  split at h
  · rename_i c tail
    have hsign := sign_length tail
    have := (List.dropWhile_sublist Char.isDigit (l := (Number.Numeral.sign tail).2)).length_le
    split at h
    · dsimp only at h
      split at h
      · simp at h
      · simp only [Option.some.injEq, Prod.mk.injEq] at h
        obtain ⟨-, rfl⟩ := h
        simp only [List.length_cons]
        omega
    · simp only [Option.some.injEq, Prod.mk.injEq] at h
      simp [← h.2]
  · simp_all

theorem unsigned?_length {negative : Bool} {t : NumberText} {cs rest : List Char}
    (h : unsigned? negative cs = some (t, rest)) : rest.length < cs.length := by
  simp only [unsigned?, Option.bind_eq_bind] at h
  split at h
  · simp at h
  · rename_i hwhole
    obtain ⟨⟨_, after⟩, hf, ⟨_, last⟩, he, hr⟩ := by
      simpa only [Option.bind_eq_some_iff] using h
    have h1 := fraction?_length hf
    have h2 := exponent?_length he
    simp only [Option.pure_def, Option.some.injEq, Prod.mk.injEq] at hr
    obtain ⟨-, rfl⟩ := hr
    have h3 : (cs.takeWhile Char.isDigit).length ≠ 0 := by
      intro h0
      simp [List.length_eq_zero_iff.mp h0] at hwhole
    have h4 := congrArg List.length (@List.takeWhile_append_dropWhile Char Char.isDigit cs)
    rw [List.length_append] at h4
    simp only at h2
    omega

theorem number?_length {t : NumberText} {cs rest : List Char}
    (h : number? cs = some (t, rest)) : rest.length < cs.length := by
  unfold number? at h
  split at h
  · exact Nat.lt_succ_of_lt (unsigned?_length h)
  · exact unsigned?_length h

end SqlText.Json
