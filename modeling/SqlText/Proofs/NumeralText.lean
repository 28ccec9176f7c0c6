import SqlText.Literal
import SqlText.Proofs.Carrying

/-!
# Numbers as numerals

Whatever an integer or a number with fixed decimals is coerced from, its text is a
plain decimal numeral: digits, at most one minus sign before them and at most one
point among them. Nothing else about the digits is used here.
-/

namespace SqlText

namespace Number

/-- Decimal digits, at least one. -/
def IsDigits (cs : List Char) : Prop := cs ≠ [] ∧ ∀ c ∈ cs, c.isDigit = true

/-- A minus sign where there is one. -/
def minus (negative : Bool) : List Char := if negative then ['-'] else []

/-- A signed decimal numeral. -/
inductive IsNumeral : List Char → Prop where
  /-- An integer. -/
  | integer (negative : Bool) {whole : List Char} :
      IsDigits whole → IsNumeral (minus negative ++ whole)
  /-- A number with digits on both sides of a point. -/
  | decimal (negative : Bool) {whole fraction : List Char} :
      IsDigits whole → IsDigits fraction →
        IsNumeral (minus negative ++ (whole ++ '.' :: fraction))

/-- The digits of a natural number. -/
theorem isDigits_toDigits (n : Nat) : IsDigits (Nat.toDigits 10 n) :=
  ⟨Nat.toDigits_ne_nil, fun _ hc => Nat.isDigit_of_mem_toDigits (by decide) (by decide) hc⟩

/-- Zeros are digits. -/
theorem isDigit_of_mem_zeros {n : Nat} : ∀ c ∈ List.replicate n '0', c.isDigit = true := by
  intro c hc
  rw [List.eq_of_mem_replicate hc]
  decide

/-- Digits before or after other digits. -/
theorem IsDigits.of_append {cs ds : List Char} (hne : cs ++ ds ≠ [])
    (hcs : ∀ c ∈ cs, c.isDigit = true) (hds : ∀ c ∈ ds, c.isDigit = true) :
    IsDigits (cs ++ ds) := by
  refine ⟨hne, fun c hc => ?_⟩
  rcases List.mem_append.mp hc with hc | hc
  · exact hcs c hc
  · exact hds c hc

/-- Digits are taken up to the first character that is none. -/
theorem span_digits {digits rest : List Char} (h : ∀ c ∈ digits, c.isDigit = true)
    (hrest : ∀ c ∈ rest.head?, c.isDigit = false) :
    (digits ++ rest).takeWhile Char.isDigit = digits ∧
      (digits ++ rest).dropWhile Char.isDigit = rest := by
  rw [List.takeWhile_append_of_pos h, List.dropWhile_append_of_pos h]
  cases rest with
  | nil => simp
  | cons c rest =>
    have hc : c.isDigit = false := hrest c (by simp)
    simp [hc]

namespace Decimal

/-- A scaled decimal has digits only. -/
theorem isDigits_scaledDigits (d : Decimal) (places : Nat) :
    IsDigits (d.scaledDigits places) := by
  unfold scaledDigits
  split
  · obtain ⟨hne, hdigits⟩ := isDigits_toDigits d.coefficient
    exact .of_append (by simp [hne]) hdigits isDigit_of_mem_zeros
  · exact isDigits_toDigits _

/-- Digits with a point are a numeral, and so are they after a minus sign. -/
theorem isNumeral_pointed (negative : Bool) (places : Nat) {digits : List Char}
    (h : IsDigits digits) : IsNumeral (minus negative ++ pointed places digits) := by
  unfold pointed
  have hfilled : IsDigits (List.replicate (places + 1 - digits.length) '0' ++ digits) :=
    .of_append (by simp [h.1]) isDigit_of_mem_zeros h.2
  have hlength : places + 1 ≤
      (List.replicate (places + 1 - digits.length) '0' ++ digits).length := by
    simp only [List.length_append, List.length_replicate]
    omega
  generalize List.replicate (places + 1 - digits.length) '0' ++ digits = filled
    at hfilled hlength
  dsimp only
  split
  · exact .integer negative hfilled
  · rename_i hplaces
    refine .decimal negative ⟨?_, fun c hc => hfilled.2 c (List.mem_of_mem_take hc)⟩
      ⟨?_, fun c hc => hfilled.2 c (List.mem_of_mem_drop hc)⟩
    · intro hnil
      have := congrArg List.length hnil
      simp only [List.length_take, List.length_nil] at this
      omega
    · intro hnil
      have := congrArg List.length hnil
      simp only [List.length_drop, List.length_nil] at this
      omega

/-- A decimal with fixed decimals is a numeral. -/
theorem isNumeral_fixed (negative : Bool) (d : Decimal) (places : Nat) :
    IsNumeral (fixed negative d places) :=
  isNumeral_pointed _ places (d.isDigits_scaledDigits places)

end Decimal

/-- A number with fixed decimals is a numeral. -/
theorem isNumeral_fixedPoint (x : Binary64) (places : Nat) :
    IsNumeral (x.fixedPoint places).toList := by
  cases x with
  | nan | infinite =>
    simpa only [Binary64.fixedPoint, String.toList_ofList] using Decimal.isNumeral_fixed _ _ _
  | finite negative rank =>
    simpa only [Binary64.fixedPoint, String.toList_ofList] using Decimal.isNumeral_fixed _ _ _

/-- An integer is written in digits, after a minus sign if it is negative. -/
theorem toList_toString (z : Int) :
    (toString z).toList = minus (z < 0) ++ Nat.toDigits 10 z.natAbs := by
  cases z with
  | ofNat m =>
    have hsign : ¬Int.ofNat m < 0 := Int.not_lt.mpr (Int.natCast_nonneg m)
    rw [decide_eq_false hsign]
    exact Nat.toList_repr
  | negSucc m =>
    change ("-" ++ Nat.repr (m + 1)).toList = _
    rw [String.toList_append, Nat.toList_repr, decide_eq_true (Int.negSucc_lt_zero m)]
    rfl

/-- The text of a 64-bit integer is that of the integer. -/
theorem toList_intText (n : Int64) :
    (intText n).toList = minus (n.toInt < 0) ++ Nat.toDigits 10 n.toInt.natAbs :=
  toList_toString n.toInt

/-- An integer is a numeral. -/
theorem isNumeral_intText (n : Int64) : IsNumeral (intText n).toList := by
  rw [toList_intText]
  exact .integer _ (isDigits_toDigits _)

/-- A numeral has a digit in it. -/
theorem IsNumeral.exists_digit {cs : List Char} (h : IsNumeral cs) :
    ∃ c ∈ cs, c.isDigit = true := by
  have hsome (before after : List Char) {whole : List Char} (hwhole : IsDigits whole) :
      ∃ c ∈ before ++ (whole ++ after), c.isDigit = true := by
    obtain ⟨c, hc⟩ := List.exists_mem_of_ne_nil _ hwhole.1
    exact ⟨c, by simp [hc], hwhole.2 c hc⟩
  cases h with
  | integer negative hwhole => simpa using hsome (minus negative) [] hwhole
  | decimal negative hwhole _ => exact hsome _ _ hwhole

/-- A digit is not blank. -/
theorem isBlank_of_isDigit {c : Char} (h : c.isDigit = true) : Text.isBlank c = false := by
  have hrange := Char.isDigit_iff_toNat.mp h
  have h0 : '0'.toNat = 48 := rfl
  have h9 : '9'.toNat = 57 := rfl
  simp only [Text.isBlank, Bool.or_eq_false_iff, Bool.and_eq_false_iff, decide_eq_false_iff_not,
    beq_eq_false_iff_ne]
  omega

/-- A numeral is not blank. -/
theorem IsNumeral.isBlankText {s : String} (h : IsNumeral s.toList) :
    Text.isBlankText s = false := by
  obtain ⟨c, hc, hdigit⟩ := h.exists_digit
  exact List.all_eq_false.mpr ⟨c, hc, by simp [isBlank_of_isDigit hdigit]⟩

/-- The plain text of a number is not blank. -/
theorem Binary64.isBlankText_plainText (x : Binary64) : Text.isBlankText x.plainText = false := by
  cases x with
  | nan => decide
  | infinite negative => cases negative <;> decide
  | finite negative rank =>
    have htext : (plainText (.finite negative rank)).toList =
        minus negative ++ (shortest .up rank).plain := by
      cases negative <;> exact String.toList_ofList
    refine IsNumeral.isBlankText ?_
    rw [htext]
    exact Decimal.isNumeral_pointed negative _ (Decimal.isDigits_scaledDigits _ _)

end Number

namespace Literal

open Number (IsNumeral)

variable {b : Builder} {strict : Bool} {v : Value} {s : String}

/-- A problem before a text: the text is what is written. -/
theorem eq_of_writes_problem {error : Error} {sql : Option String} {text : String}
    (h : b.Writes [.problem error sql, .fixed text] s) : s = text := by
  obtain ⟨t, u, ht, hu, rfl⟩ := Builder.writes_cons.mp h
  rw [(Builder.writes_problem.mp ht).2, Builder.writes_fixed.mp hu]
  exact String.empty_append

/-- What is written as a numeral is the keyword in the place of null. -/
theorem null_or_numeral {d : Draft} (hd : b.Writes d s → IsNumeral s.toList)
    (h : b.Writes (if v.isNull then null else d) s) :
    if v.isNull then s = "NULL" else IsNumeral s.toList := by
  split at h
  · rename_i hnull
    rw [if_pos hnull]
    exact Builder.writes_fixed.mp h
  · rename_i hnull
    rw [if_neg hnull]
    exact hd h

/-- An integer is written as the keyword or as a numeral. -/
theorem numeral_of_writes_integer (h : b.Writes (integer strict v) s) :
    if v.isNull then s = "NULL" else IsNumeral s.toList := by
  refine null_or_numeral (fun h => ?_) h
  split at h
  · rw [Builder.writes_fixed.mp h]
    exact Number.isNumeral_intText _
  · rw [eq_of_writes_problem h]
    exact Number.isNumeral_intText 0

/-- A number with fixed decimals is written as the keyword or as a numeral. -/
theorem numeral_of_writes_float {precision : UInt32}
    (h : b.Writes (float strict precision v) s) :
    if v.isNull then s = "NULL" else IsNumeral s.toList := by
  refine null_or_numeral (fun h => ?_) h
  split at h
  · rw [Builder.writes_fixed.mp h]
    exact Number.isNumeral_fixedPoint _ _
  · rw [eq_of_writes_problem h]
    exact Number.isNumeral_fixedPoint _ _

end Literal

end SqlText
