import SqlText.Literal.Coercion
import SqlText.Proofs.Finiteness
import Mathlib.Data.List.TakeWhile

/-!
# The grammar of numerals

A text in the place of a number is a numeral, and what it denotes can be told from its grammar:
a sign, digits with at most one point among them, a power of ten. A text counts as an integer
exactly when it denotes one of 64 bits, and as a number exactly when what it denotes is rounded
to a finite number.
-/

namespace SqlText.Number

namespace Numeral

/-- A text is a sign, or none, before the rest. -/
inductive Signed : List Char → Bool → List Char → Prop where
  /-- There is no sign. -/
  | absent {rest : List Char} : Signed rest false rest
  /-- There is a plus sign. -/
  | plus {rest : List Char} : Signed ('+' :: rest) false rest
  /-- There is a minus sign. -/
  | minus {rest : List Char} : Signed ('-' :: rest) true rest

/-- The text denotes the integer: digits after a sign, or without one. -/
inductive DenotesInt : List Char → ℤ → Prop where
  /-- Digits after a sign. -/
  | mk {cs digits : List Char} {negative : Bool} :
      Signed cs negative digits → IsDigits digits →
        DenotesInt cs (if negative then -valueOf digits else valueOf digits)

/-- The text is a point and these digits, or nothing. -/
inductive Fraction : List Char → List Char → Prop where
  /-- There is no point. -/
  | absent : Fraction [] []
  /-- There is a point, with digits after it or without. -/
  | present {digits : List Char} :
    (∀ c ∈ digits, c.isDigit = true) → Fraction ('.' :: digits) digits

/-- The text is a power of ten, or nothing. -/
inductive Power : List Char → ℤ → Prop where
  /-- Nothing is the power zero. -/
  | absent : Power [] 0
  /-- An integer after the letter. -/
  | present {e : Char} {cs : List Char} {z : ℤ} : e = 'e' ∨ e = 'E' → DenotesInt cs z →
      Power (e :: cs) z

/-- The text denotes the number: digits before or after a point, or both, between a sign and a
power of ten, each of which may be left out. -/
inductive DenotesRat : List Char → ℚ → Prop where
  /-- A sign, digits with a point or without, and a power. -/
  | mk {cs whole point fraction power : List Char} {negative : Bool} {z : ℤ} :
      Signed cs negative (whole ++ (point ++ power)) → (∀ c ∈ whole, c.isDigit = true) →
        Fraction point fraction → whole ++ fraction ≠ [] → Power power z →
          DenotesRat cs ((if negative then -1 else 1) * (decimalValue whole fraction * 10 ^ z))

variable {cs rest whole point fraction power : List Char} {negative : Bool} {z : ℤ}

/-- A sign is read as the grammar has it. -/
theorem signed_sign (cs : List Char) : Signed cs (sign cs).1 (sign cs).2 := by
  unfold sign
  split
  · exact .minus
  · exact .plus
  · exact .absent

/-- A sign is read where no second one follows. -/
theorem sign_eq (h : Signed cs negative rest) (hrest : ∀ c ∈ rest.head?, c ≠ '+' ∧ c ≠ '-') :
    sign cs = (negative, rest) := by
  cases h with
  | plus | minus => rfl
  | absent =>
    cases cs with
    | nil => rfl
    | cons c cs =>
      obtain ⟨hplus, hminus⟩ := hrest c rfl
      rw [sign]
      · exact fun _ h => hminus (List.cons.inj h).1
      · exact fun _ h => hplus (List.cons.inj h).1

/-- A digit is no sign. -/
theorem not_sign_of_isDigit {c : Char} (h : c.isDigit = true) : c ≠ '+' ∧ c ≠ '-' := by
  constructor <;> rintro rfl <;> cases h

/-- An integer is read exactly where the grammar has one. -/
theorem integer?_eq_some_iff : integer? cs = some z ↔ DenotesInt cs z := by
  unfold integer?
  constructor
  · intro h
    have hsigned := signed_sign cs
    dsimp only at h
    split at h
    · cases h
    · rename_i hdigits
      simp only [Bool.or_eq_true, not_or, Bool.not_eq_true', Bool.not_eq_false,
        List.isEmpty_iff, List.all_eq_true] at hdigits
      obtain rfl := Option.some.inj h
      exact .mk hsigned hdigits
  · rintro ⟨hsigned, hne, hdigits⟩
    rename_i digits negative
    have hhead : ∀ c ∈ digits.head?, c ≠ '+' ∧ c ≠ '-' := fun c hc =>
      not_sign_of_isDigit (hdigits c (List.mem_of_mem_head? hc))
    rw [sign_eq hsigned hhead]
    have hall : ¬(digits.isEmpty || !digits.all Char.isDigit) = true := by
      simpa [hne] using hdigits
    dsimp only
    rw [if_neg hall]

/-- An integer of 64 bits is read exactly where the grammar has one. -/
theorem isSome_int64? :
    (int64? cs).isSome = true ↔ ∃ z, DenotesInt cs z ∧ -2 ^ 63 ≤ z ∧ z < 2 ^ 63 := by
  have hmin : Int64.minValue.toInt = -2 ^ 63 := by decide
  have hmax : Int64.maxValue.toInt = 2 ^ 63 - 1 := by decide
  unfold int64?
  cases hz : integer? cs with
  | none =>
    refine iff_of_false Bool.false_ne_true ?_
    rintro ⟨z, hdenotes, _⟩
    rw [integer?_eq_some_iff.mpr hdenotes] at hz
    cases hz
  | some z =>
    have hdenotes := integer?_eq_some_iff.mp hz
    simp only [Option.bind_eq_bind, Option.bind_some, hmin, hmax]
    split
    · rename_i hrange
      exact iff_of_true rfl ⟨z, hdenotes, hrange.1, by omega⟩
    · rename_i hrange
      refine iff_of_false Bool.false_ne_true ?_
      rintro ⟨z', hdenotes', hlow, hhigh⟩
      have hsame := integer?_eq_some_iff.mpr hdenotes'
      rw [hz] at hsame
      obtain rfl := Option.some.inj hsame
      exact hrange ⟨hlow, by omega⟩

/-- A power of ten is read exactly where the grammar has one. -/
theorem power?_eq_some_iff : power? cs = some z ↔ Power cs z := by
  cases cs with
  | nil =>
    rw [power?, Option.some.injEq]
    constructor
    · rintro rfl
      exact .absent
    · rintro ⟨⟩
      rfl
  | cons c cs =>
    rw [power?]
    split
    · rename_i hletter
      rw [integer?_eq_some_iff]
      constructor
      · exact .present hletter
      · intro h
        cases h with
        | present _ h => exact h
    · rename_i hletter
      refine iff_of_false (Option.some_ne_none z).symm ?_
      rintro ⟨⟩
      rename_i h _
      exact hletter h

/-- After the digits of a numeral stands neither a digit nor anything that is read as one. -/
theorem Power.head? (h : Power power z) : ∀ c ∈ power.head?, c.isDigit = false ∧ c ≠ '.' := by
  cases h with
  | absent => simp
  | present hletter _ =>
    intro c hc
    obtain rfl := Option.some.inj hc
    rcases hletter with rfl | rfl <;> decide

/-- The digits after a point, if there is one, and the rest. -/
def cutFraction : List Char → List Char × List Char
  | '.' :: rest => (rest.takeWhile Char.isDigit, rest.dropWhile Char.isDigit)
  | rest => ([], rest)

/-- The decimal of digits before and after a point and of a power of ten. -/
def assembled? (whole fraction power : List Char) : Option Decimal :=
  if (whole ++ fraction).isEmpty then none
  else (power? power).map fun z => ⟨valueOf (whole ++ fraction), z - fraction.length⟩

/-- A decimal is read in these parts. -/
theorem decimal?_eq (cs : List Char) : decimal? cs =
    assembled? (cs.takeWhile Char.isDigit) (cutFraction (cs.dropWhile Char.isDigit)).1
      (cutFraction (cs.dropWhile Char.isDigit)).2 := rfl

/-- A fraction is cut off as the grammar has it. -/
theorem exists_fraction (cs : List Char) :
    ∃ point, cs = point ++ (cutFraction cs).2 ∧ Fraction point (cutFraction cs).1 := by
  unfold cutFraction
  split
  · rename_i rest
    exact ⟨'.' :: rest.takeWhile Char.isDigit,
      by rw [List.cons_append, List.takeWhile_append_dropWhile],
      .present fun _ => List.mem_takeWhile_imp⟩
  · exact ⟨[], rfl, .absent⟩

/-- A fraction of the grammar is cut off where no digit and no point follows. -/
theorem cutFraction_append (hpoint : Fraction point fraction)
    (hrest : ∀ c ∈ rest.head?, c.isDigit = false ∧ c ≠ '.') :
    cutFraction (point ++ rest) = (fraction, rest) := by
  cases hpoint with
  | absent =>
    rw [List.nil_append]
    unfold cutFraction
    split
    · exact absurd rfl (hrest '.' rfl).2
    · rfl
  | present hfraction =>
    obtain ⟨htake, hdrop⟩ := span_digits hfraction fun c hc => (hrest c hc).1
    rw [List.cons_append, cutFraction, htake, hdrop]

/-- What is put together has the number of its parts. -/
theorem assembled?_eq_some_iff {d : Decimal} : assembled? whole fraction power = some d ↔
    whole ++ fraction ≠ [] ∧
      ∃ z, Power power z ∧ d = ⟨valueOf (whole ++ fraction), z - fraction.length⟩ := by
  unfold assembled?
  simp only [← power?_eq_some_iff, List.isEmpty_iff]
  split
  · rename_i hempty
    exact iff_of_false (Option.some_ne_none d).symm fun h => h.1 hempty
  · rename_i hsome
    simp only [Option.map_eq_some_iff, ne_eq, hsome, not_false_eq_true, true_and,
      eq_comm (a := d)]

/-- The decimal of digits, point and power has their number. -/
theorem toRat_assembled (whole fraction : List Char) (z : ℤ) :
    Decimal.toRat ⟨valueOf (whole ++ fraction), z - fraction.length⟩ =
      decimalValue whole fraction * 10 ^ z := by
  rw [Decimal.toRat, decimalValue, zpow_sub₀ (by norm_num), zpow_natCast]
  ring

/-- What is read as a decimal is one by the grammar, with its number. -/
theorem denotes_of_decimal? {d : Decimal} (h : decimal? rest = some d) :
    ∃ whole point fraction power z, rest = whole ++ (point ++ power) ∧
      (∀ c ∈ whole, c.isDigit = true) ∧ Fraction point fraction ∧ whole ++ fraction ≠ [] ∧
      Power power z ∧ d.toRat = decimalValue whole fraction * 10 ^ z := by
  rw [decimal?_eq, assembled?_eq_some_iff] at h
  obtain ⟨hsome, z, hpower, rfl⟩ := h
  obtain ⟨point, hcut, hpoint⟩ := exists_fraction (rest.dropWhile Char.isDigit)
  refine ⟨_, point, _, _, z, ?_, fun _ => List.mem_takeWhile_imp, hpoint, hsome, hpower,
    toRat_assembled _ _ z⟩
  rw [← hcut, List.takeWhile_append_dropWhile]

/-- What is a decimal by the grammar is read as one, with its number. -/
theorem exists_decimal? (hwhole : ∀ c ∈ whole, c.isDigit = true)
    (hpoint : Fraction point fraction) (hsome : whole ++ fraction ≠ []) (hpower : Power power z) :
    ∃ d, decimal? (whole ++ (point ++ power)) = some d ∧
      d.toRat = decimalValue whole fraction * 10 ^ z := by
  have hlater : ∀ c ∈ (point ++ power).head?, c.isDigit = false := by
    cases hpoint with
    | absent => exact fun c hc => (hpower.head? c hc).1
    | present => simp
  obtain ⟨htake, hdrop⟩ := span_digits hwhole hlater
  refine ⟨_, ?_, toRat_assembled whole fraction z⟩
  rw [decimal?_eq, htake, hdrop, cutFraction_append hpoint hpower.head?]
  exact assembled?_eq_some_iff.mpr ⟨hsome, z, hpower, rfl⟩

/-- A number without its sign begins with a digit or a point. -/
theorem exists_head_magnitude (hwhole : ∀ c ∈ whole, c.isDigit = true)
    (hpoint : Fraction point fraction) (hsome : whole ++ fraction ≠ []) (power : List Char) :
    ∃ c cs, whole ++ (point ++ power) = c :: cs ∧ (c.isDigit = true ∨ c = '.') := by
  cases whole with
  | cons c whole => exact ⟨c, _, rfl, .inl (hwhole c List.mem_cons_self)⟩
  | nil =>
    cases hpoint with
    | absent => exact absurd rfl hsome
    | present => exact ⟨'.', _, rfl, .inr rfl⟩

/-- Letters alone have another case. -/
theorem toLower_eq {c : Char} (hc : c.isDigit = true ∨ c = '.') : c.toLower = c := by
  unfold Char.toLower
  refine dif_neg fun hupper => ?_
  rcases hc with hdigit | rfl
  · have hle : 'A'.toNat ≤ c.toNat := UInt32.le_iff_toNat_le.mp hupper.1
    have hA : 'A'.toNat = 65 := rfl
    have h9 : '9'.toNat = 57 := rfl
    have := (Char.isDigit_iff_toNat.mp hdigit).2
    omega
  · revert hupper
    decide

/-- What begins with a digit or a point is not the name of a number. -/
theorem binary64?_eq {c : Char} (hc : c.isDigit = true ∨ c = '.')
    (hsign : sign cs = (negative, c :: rest)) :
    binary64? cs = (decimal? (c :: rest)).map (Decimal.nearest negative) := by
  have hname {name : String} (hhead : name.toList.head? ≠ some c) :
      String.ofList ((c :: rest).map Char.toLower) ≠ name := by
    rintro rfl
    rw [String.toList_ofList, List.map_cons, toLower_eq hc] at hhead
    exact hhead rfl
  have hi : c ≠ 'i' := by rintro rfl; simp at hc
  have hn : c ≠ 'n' := by rintro rfl; simp at hc
  have hinf : ¬(String.ofList ((c :: rest).map Char.toLower) = "inf" ∨
      String.ofList ((c :: rest).map Char.toLower) = "infinity") :=
    not_or.mpr ⟨hname (by simpa using hi.symm), hname (by simpa using hi.symm)⟩
  have hnan : String.ofList ((c :: rest).map Char.toLower) ≠ "nan" :=
    hname (by simpa using hn.symm)
  unfold binary64?
  rw [hsign]
  dsimp only
  rw [if_neg hinf, if_neg hnan]

/-- The sign does not change the magnitude. -/
theorem abs_signed (negative : Bool) (whole fraction : List Char) (z : ℤ) :
    |(if negative then -1 else 1) * (decimalValue whole fraction * 10 ^ z)| =
      decimalValue whole fraction * 10 ^ z := by
  have hsign : |if negative then (-1 : ℚ) else 1| = 1 := by cases negative <;> simp
  have hnonneg : 0 ≤ decimalValue whole fraction * 10 ^ z :=
    mul_nonneg (div_nonneg (Nat.cast_nonneg _) (by positivity)) (zpow_nonneg (by norm_num) z)
  rw [abs_mul, hsign, one_mul, abs_of_nonneg hnonneg]

/-- A text is read as a finite number exactly when it denotes one that is in range. -/
theorem exists_finite_iff : (∃ x, binary64? cs = some x ∧ x.isFinite = true) ↔
    ∃ q, DenotesRat cs q ∧ |q| < overflow := by
  constructor
  · rintro ⟨x, hx, hfinite⟩
    have hsigned := signed_sign cs
    unfold binary64? at hx
    dsimp only at hx
    split at hx
    · cases hx
      cases hfinite
    · split at hx
      · cases hx
        cases hfinite
      · obtain ⟨d, hd, rfl⟩ := Option.map_eq_some_iff.mp hx
        obtain ⟨whole, point, fraction, power, z, hrest, hwhole, hpoint, hsome, hpower, hvalue⟩ :=
          denotes_of_decimal? hd
        rw [hrest] at hsigned
        refine ⟨_, .mk hsigned hwhole hpoint hsome hpower, ?_⟩
        rw [abs_signed, ← hvalue]
        exact (d.isFinite_nearest _).mp hfinite
  · rintro ⟨q, hdenotes, hrange⟩
    cases hdenotes with
    | @mk whole point fraction power negative z hsigned hwhole hpoint hsome hpower =>
      obtain ⟨c, rest, hhead, hc⟩ := exists_head_magnitude hwhole hpoint hsome power
      obtain ⟨d, hd, hvalue⟩ := exists_decimal? hwhole hpoint hsome hpower
      rw [abs_signed, ← hvalue] at hrange
      rw [hhead] at hsigned hd
      have hnosign : c ≠ '+' ∧ c ≠ '-' := by
        rcases hc with hdigit | rfl
        · exact not_sign_of_isDigit hdigit
        · decide
      have hsign := sign_eq hsigned fun c' hc' => Option.some.inj hc' ▸ hnosign
      refine ⟨d.nearest negative, ?_, (d.isFinite_nearest negative).mpr hrange⟩
      rw [binary64?_eq hc hsign, hd]
      rfl

end Numeral

end SqlText.Number

namespace SqlText.Literal

open Number (Numeral.DenotesInt Numeral.DenotesRat)

/-- A text counts as an integer exactly when it denotes one of 64 bits, blanks around it
left out. -/
theorem isSome_intText? {s : String} : (intText? s).isSome = true ↔
    ∃ z, Numeral.DenotesInt (Text.trimmed s.toList) z ∧ -2 ^ 63 ≤ z ∧ z < 2 ^ 63 :=
  Number.Numeral.isSome_int64?

/-- A text counts as a number exactly when it denotes one in range, blanks around it left out. -/
theorem isSome_finiteText? {s : String} : (finiteText? s).isSome = true ↔
    ∃ q, Numeral.DenotesRat (Text.trimmed s.toList) q ∧ |q| < Number.overflow := by
  rw [← Number.Numeral.exists_finite_iff]
  unfold finiteText?
  cases Number.Numeral.binary64? (Text.trimmed s.toList) with
  | none => simp
  | some x => cases hx : x.isFinite <;> simp [finite?, hx]

end SqlText.Literal
