import SqlText.Proofs.IntegerText
import SqlText.Proofs.NumeralGrammar

/-!
# Integer texts of any length

A strict builder takes the texts of integers of 64 bits. A lenient one goes on by way of the
floating-point number nearest to the text: an integer that does not fit 64 bits is rounded to a
number that does not fit either, and becomes the nearest integer that does. Only a text that is
rounded out of the range of the floating-point numbers is no number there, and becomes zero.
-/

namespace SqlText

namespace Number

variable {m n : ℕ} {negative : Bool}

/-- The nearest integer of 64 bits. -/
def clamped (z : ℤ) : ℤ := max (-2 ^ 63) (min z (2 ^ 63 - 1))

/-- An integer of 64 bits is its own nearest. -/
theorem clamped_of_mem {z : ℤ} (hlow : -2 ^ 63 ≤ z) (hhigh : z < 2 ^ 63) : clamped z = z := by
  unfold clamped
  omega

/-- What is cut down to 64 bits is the nearest integer. -/
theorem toInt_ofIntClamp (z : ℤ) : (Int64.ofIntClamp z).toInt = clamped z := by
  have hmin : Int64.minValue.toInt = -2 ^ 63 := by decide
  have hmax : Int64.maxValue.toInt = 2 ^ 63 - 1 := by decide
  by_cases hlow : Int64.minValue.toInt ≤ z
  · by_cases hhigh : z ≤ Int64.maxValue.toInt
    · rw [Int64.toInt_ofIntClamp hlow hhigh, clamped_of_mem] <;> omega
    · rw [Int64.ofIntClamp, dif_pos hlow, dif_neg hhigh, hmax, clamped]
      omega
  · rw [Int64.ofIntClamp, dif_neg hlow, hmin, clamped]
    omega

/-- Integers of 64 bits are in the range of the floating-point numbers. -/
theorem lt_overflow {q : ℚ} (h : q ≤ 2 ^ 63) : q < overflow :=
  calc q ≤ 2 ^ 63 := h
    _ < (2 ^ 54 - 1) * 2 ^ 10 := by norm_num
    _ ≤ overflow := mul_le_mul_of_nonneg_left
      (pow_le_pow_right₀ (by norm_num) (by decide)) (by norm_num)

/-- The bound of the floating-point numbers is a natural number. -/
theorem overflow_eq : overflow = ((18014398509481983 * 2 ^ 970 : ℕ) : ℚ) := by
  have hfront : (2 ^ 54 - 1 : ℚ) = ((18014398509481983 : ℕ) : ℚ) := by norm_num
  rw [overflow, hfront, Nat.cast_mul, Nat.cast_pow 2]
  rfl

/-- A magnitude that does not fit 64 bits is not rounded to one that does. -/
theorem pow_le_units_nearestRank (h : 2 ^ 63 ≤ n) :
    2 ^ 63 ≤ units (nearestRank n 1) / Nat.pow 2 1074 := by
  have hrank : (1076 + 10) * 2 ^ 52 ≤ nearestRank n 1 := by
    rw [← not_lt, nearestRank_one_lt_iff]
    omega
  have hbinade (k : ℕ) : units ((k + 12) * 2 ^ 52) = 2 ^ 63 * 2 ^ k := by
    have hsplit : (k + 12) * 2 ^ 52 = 2 ^ 52 + (k + 11) * 2 ^ 52 := by ring
    rw [hsplit, units_eq le_rfl (by decide)]
    ring
  have hunits := strictMono_units.monotone hrank
  have hscale : 1076 + 10 = 1074 + 12 := rfl
  rw [hscale, hbinade] at hunits
  generalize units (nearestRank n 1) = magnitude at hunits ⊢
  generalize 1074 = k at hunits ⊢
  exact (Nat.le_div_iff_mul_le (Nat.pow_pos (by decide))).mpr hunits

/-- A finite number that an integer beyond 64 bits is rounded to is cut down to the nearest
integer of 64 bits. -/
theorem toInt_truncated_nearest (h : 2 ^ 63 ≤ n)
    (hfinite : (Binary64.nearest negative n 1).isFinite = true) :
    (Binary64.nearest negative n 1).truncated.toInt = clamped (ofSign negative n) := by
  have hwhole := pow_le_units_nearestRank h
  unfold Binary64.nearest Binary64.ofRank at hfinite ⊢
  split at hfinite
  · rename_i hrank
    rw [dif_pos hrank, Binary64.truncated, toInt_ofIntClamp]
    dsimp only
    rw [← Int.natCast_ediv]
    generalize units (nearestRank n 1) / Nat.pow 2 1074 = whole at hwhole ⊢
    cases negative <;>
      simp only [ofSign, clamped, Bool.false_eq_true, if_true, if_false] <;>
      omega
  · cases hfinite

/-- An integer as a decimal is rounded like the integer, where that is finite. -/
theorem Decimal.nearest_of_integer (hm : m ≠ 0)
    (hfinite : (Decimal.nearest negative ⟨m, 0⟩).isFinite = true) :
    Decimal.nearest negative ⟨m, 0⟩ = .nearest negative m 1 := by
  unfold Decimal.nearest at hfinite ⊢
  dsimp only at hfinite ⊢
  have hsmall : ¬(m = 0 ∨ (0 : ℤ) + (Nat.toDigits 10 m).length < -330) := by omega
  rw [if_neg hsmall] at hfinite ⊢
  split at hfinite
  · cases hfinite
  · rename_i hlarge
    rw [if_neg hlarge]
    exact congrArg (Binary64.nearest negative · 1) (Nat.mul_one m)

namespace Numeral

variable {cs digits : List Char}

/-- Digits are a decimal without a fraction. -/
theorem binary64?_of_digits (hsigned : Signed cs negative digits) (hdigits : IsDigits digits) :
    binary64? cs = some (Decimal.nearest negative ⟨valueOf digits, 0⟩) := by
  obtain ⟨hne, hdigits⟩ := hdigits
  obtain ⟨c, rest, rfl⟩ := List.exists_cons_of_ne_nil hne
  have hc : c.isDigit = true := hdigits c List.mem_cons_self
  have hsign := sign_eq hsigned fun c' hc' => Option.some.inj hc' ▸ not_sign_of_isDigit hc
  have hend : ∀ c ∈ ([] : List Char).head?, c.isDigit = false := by simp
  have hspan := span_digits hdigits hend
  rw [List.append_nil] at hspan
  rw [binary64?_eq (.inl hc) hsign, decimal?_eq, hspan.1, hspan.2]
  simp [cutFraction, assembled?, power?]

/-- A one and the zeros after it denote a power of ten. -/
theorem denotesInt_power (k : ℕ) :
    DenotesInt (Text.trimmed ('1' :: List.replicate k '0')) ((10 ^ k : ℕ) : ℤ) := by
  have hdigits : ∀ c ∈ '1' :: List.replicate k '0', c.isDigit = true := by simp
  have hdrop {cs : List Char} (h : ∀ c ∈ cs, c.isDigit = true) :
      cs.dropWhile Text.isBlank = cs := by
    refine List.dropWhile_eq_self_iff.mpr fun hlength => ?_
    simp [isBlank_of_isDigit (h _ (List.getElem_mem hlength))]
  have htrimmed : Text.trimmed ('1' :: List.replicate k '0') = '1' :: List.replicate k '0' := by
    rw [Text.trimmed, hdrop hdigits, hdrop fun c hc => hdigits c (List.mem_reverse.mp hc),
      List.reverse_reverse]
  have hvalue : valueOf ('1' :: List.replicate k '0') = 10 ^ k := by
    rw [valueOf_cons]
    simp
  rw [htrimmed, ← hvalue]
  exact .mk .absent ⟨List.cons_ne_nil _ _, hdigits⟩

end Numeral

end Number

namespace Literal

open Number

variable {s : String} {z : ℤ}

/-- A text that denotes an integer counts as that integer when it fits 64 bits. -/
theorem intText?_eq (h : Numeral.DenotesInt (Text.trimmed s.toList) z) :
    intText? s = if -2 ^ 63 ≤ z ∧ z < 2 ^ 63 then some (Int64.ofInt z) else none := by
  have hmin : Int64.minValue.toInt = -2 ^ 63 := by decide
  have hmax : Int64.maxValue.toInt = 2 ^ 63 - 1 := by decide
  rw [intText?, Numeral.int64?, Numeral.integer?_eq_some_iff.mpr h]
  simp only [hmin, hmax, Int.le_sub_one_iff, Option.bind_eq_bind, Option.bind_some]

/-- A text that denotes an integer beyond 64 bits counts as a number when it is in range, and
is cut down to the nearest integer of 64 bits. -/
theorem truncated_finiteText? (h : Numeral.DenotesInt (Text.trimmed s.toList) z)
    (hlarge : 2 ^ 63 ≤ z.natAbs) :
    ((finiteText? s).map fun x => x.truncated.toInt) =
      if |(z : ℚ)| < overflow then some (clamped z) else none := by
  obtain ⟨hsigned, hdigits⟩ := h
  rename_i digits negative
  change 2 ^ 63 ≤ (ofSign negative (valueOf digits)).natAbs at hlarge
  change _ = if |(ofSign negative (valueOf digits) : ℚ)| < overflow then
    some (clamped (ofSign negative (valueOf digits))) else none
  rw [natAbs_ofSign] at hlarge
  rw [finiteText?, Numeral.binary64?_of_digits hsigned hdigits, Option.bind_some]
  generalize valueOf digits = m at hlarge ⊢
  have hfinite := Decimal.isFinite_nearest negative ⟨m, 0⟩
  have hvalue : Decimal.toRat ⟨m, 0⟩ = |(ofSign negative m : ℚ)| := by
    cases negative <;> simp [Decimal.toRat, ofSign]
  rw [hvalue] at hfinite
  rw [finite?]
  split
  · rename_i hx
    rw [if_pos (hfinite.mp hx)]
    have hnearest := Decimal.nearest_of_integer (by omega) hx
    rw [hnearest] at hx ⊢
    rw [Option.map_some, toInt_truncated_nearest hlarge hx]
  · rename_i hx
    rw [if_neg fun hrange => hx (hfinite.mpr hrange), Option.map_none]

/-- A lenient builder takes the nearest integer of 64 bits, and zero for a text out of the range
of the floating-point numbers. -/
theorem exists_lenientInt? (h : Numeral.DenotesInt (Text.trimmed s.toList) z) :
    ∃ n : Int64, lenientInt? (.str s) = some n ∧
      n.toInt = if |(z : ℚ)| < overflow then clamped z else 0 := by
  rw [lenientInt?, intText?_eq h]
  by_cases hfits : -2 ^ 63 ≤ z ∧ z < 2 ^ 63
  · have hrange : |(z : ℚ)| < overflow := by
      have habs : |z| ≤ 2 ^ 63 := abs_le.mpr ⟨hfits.1, hfits.2.le⟩
      exact lt_overflow (by exact_mod_cast habs)
    refine ⟨Int64.ofInt z, by rw [if_pos hfits]; rfl, ?_⟩
    rw [if_pos hrange, Int64.toInt_ofInt_of_le hfits.1 hfits.2, clamped_of_mem hfits.1 hfits.2]
  · have htext := truncated_finiteText? h (by omega)
    rw [if_neg hfits, Option.getD_none]
    refine ⟨_, rfl, ?_⟩
    cases hx : finiteText? s with
    | none =>
      rw [hx] at htext
      split at htext
      · cases htext
      · rename_i hrange
        rw [if_neg hrange]
        rfl
    | some x =>
      rw [hx] at htext
      split at htext
      · rename_i hrange
        rw [if_pos hrange]
        exact Option.some.inj htext
      · cases htext

/-- A text that counts as an integer is written as the integer. -/
theorem integer_of_some (strict : Bool) {n : Int64}
    (h : (if strict then strictInt? (.str s) else lenientInt? (.str s)) = some n) :
    integer strict (.str s) = [.fixed (intText n)] := by
  rw [integer, h]
  rfl

/-- A text that does not count as an integer is a problem before the zero. -/
theorem integer_of_none (strict : Bool)
    (h : (if strict then strictInt? (.str s) else lenientInt? (.str s)) = none) :
    integer strict (.str s) = [mismatch "integer" (.str s), .fixed "0"] := by
  rw [integer, h]
  rfl

end Literal

namespace Builder

open Number

/-- A lenient builder writes the nearest integer of 64 bits for a text that denotes an integer,
and zero for a text out of the range of the floating-point numbers. -/
theorem lenient_integer_text (e : Escaper) {s : String} {z : ℤ}
    (h : Numeral.DenotesInt (Text.trimmed s.toList) z) :
    integer ⟨e, false⟩ (.str s) =
      pure (toString (if |(z : ℚ)| < overflow then clamped z else 0)) := by
  obtain ⟨n, hn, hvalue⟩ := Literal.exists_lenientInt? h
  rw [integer, Literal.integer_of_some false hn, perform_fixed, intText, hvalue]

/-- What a lenient builder writes for a one and the zeros after it. -/
theorem lenient_integer_power (k : ℕ) :
    integer ⟨.mysql, false⟩ (.str (String.ofList ('1' :: List.replicate k '0'))) =
      pure (toString (if ((10 ^ k : ℕ) : ℚ) < overflow then clamped ((10 ^ k : ℕ) : ℤ) else 0)) := by
  have hpower := Numeral.denotesInt_power k
  rw [← String.toList_ofList (l := '1' :: List.replicate k '0')] at hpower
  have htext := lenient_integer_text .mysql hpower
  rwa [Int.cast_natCast, abs_of_nonneg (Nat.cast_nonneg _)] at htext

/-- A text that denotes an integer, however long. A strict builder writes the integer when it
fits 64 bits, and reports and refuses the text otherwise. A lenient builder writes the nearest
integer of 64 bits without a report, unless the text is rounded out of the range of the
floating-point numbers: then it writes zero. Within that range greater texts are not written as
smaller numbers. -/
theorem integer_of_text (e : Escaper) {s : String} {z : ℤ}
    (h : Numeral.DenotesInt (Text.trimmed s.toList) z) :
    integer ⟨e, true⟩ (.str s) =
        (if -2 ^ 63 ≤ z ∧ z < 2 ^ 63 then pure (toString z)
        else .failReported (.typeMismatch "integer" "string") none) ∧
      integer ⟨e, false⟩ (.str s) =
        pure (toString (if |(z : ℚ)| < overflow then clamped z else 0)) ∧
      ∀ (s' : String) (z' : ℤ), Numeral.DenotesInt (Text.trimmed s'.toList) z' → z ≤ z' →
        |(z : ℚ)| < overflow → |(z' : ℚ)| < overflow →
          ∃ m m' : ℤ, integer ⟨e, false⟩ (.str s) = pure (toString m) ∧
            integer ⟨e, false⟩ (.str s') = pure (toString m') ∧ m ≤ m' := by
  refine ⟨?_, lenient_integer_text e h, fun s' z' h' hle hrange hrange' => ?_⟩
  · have htext : Literal.strictInt? (.str s) = _ := Literal.intText?_eq h
    split
    · rename_i hfits
      rw [if_pos hfits] at htext
      rw [integer, Literal.integer_of_some true htext, perform_fixed, intText,
        Int64.toInt_ofInt_of_le hfits.1 hfits.2]
    · rename_i hfits
      rw [if_neg hfits] at htext
      rw [integer, Literal.integer_of_none true htext]
      rfl
  · refine ⟨_, _, lenient_integer_text e h, lenient_integer_text e h', ?_⟩
    rw [if_pos hrange, if_pos hrange', clamped, clamped]
    omega

/-- One more than the largest integer of 64 bits, with a sign and between blanks. -/
theorem integer_of_text_next :
    integer ⟨.mysql, true⟩ (.str " +9223372036854775808 ") =
        .failReported (.typeMismatch "integer" "string") none ∧
      integer ⟨.mysql, false⟩ (.str " +9223372036854775808 ") = pure "9223372036854775807" := by
  have h : Numeral.DenotesInt (Text.trimmed " +9223372036854775808 ".toList)
      9223372036854775808 := Numeral.integer?_eq_some_iff.mp (by decide +kernel)
  have hrange : |((9223372036854775808 : ℤ) : ℚ)| < overflow := lt_overflow (by norm_num)
  obtain ⟨hstrict, hlenient, -⟩ := integer_of_text .mysql h
  rw [if_pos hrange] at hlenient
  exact ⟨hstrict, hlenient⟩

/-- A text of 310 digits is written as zero by a lenient builder, and one of 309 digits is
not. -/
theorem integer_of_text_loses :
    (integer ⟨.mysql, false⟩ (.str (String.ofList ('1' :: List.replicate 309 '0')))).result =
        .ok "0" ∧
      (integer ⟨.mysql, false⟩ (.str (String.ofList ('1' :: List.replicate 308 '0')))).result =
        .ok "9223372036854775807" := by
  have hlong := lenient_integer_power 309
  have hshort := lenient_integer_power 308
  have hover : ¬((10 ^ 309 : ℕ) : ℚ) < overflow := by
    rw [overflow_eq, Nat.cast_lt]
    decide +kernel
  have hunder : ((10 ^ 308 : ℕ) : ℚ) < overflow := by
    rw [overflow_eq, Nat.cast_lt]
    decide +kernel
  have hclamped : clamped ((10 ^ 308 : ℕ) : ℤ) = 9223372036854775807 := by
    decide +kernel
  rw [if_neg hover] at hlong
  rw [if_pos hunder, hclamped] at hshort
  rw [hlong, hshort]
  exact ⟨rfl, rfl⟩

end Builder

end SqlText
