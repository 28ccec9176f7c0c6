import SqlText.Number.Numeral
import SqlText.Proofs.Carry

/-!
# Numbers with fixed decimals

A number with fixed decimals is the decimal of its plain text, rounded exactly. There are two
ways from the one to the other: the digits of the decimal are divided and rounded as a number,
or the digits of its text are cut off and a one is carried. Both write the same digits, because
the rounded number is filled up with zeros in one way only.
-/

namespace SqlText.Number

variable {places : ℕ}

/-- Digits before and after a point that write a number with a number of places: none is
missing before the point, and none there is superfluous. -/
structure WritesNumber (places : ℕ) (number : ℚ) (whole fraction : List Char) : Prop where
  /-- A digit stands before the point. -/
  isDigits_whole : IsDigits whole
  /-- The first of them is a zero only when it is alone. -/
  no_leading_zero : whole = ['0'] ∨ whole.head? ≠ some '0'
  /-- There are only digits behind the point. -/
  isDigit_fraction : ∀ c ∈ fraction, c.isDigit = true
  /-- There are as many as there are places. -/
  length_fraction : fraction.length = places
  /-- The digits have the value of the number. -/
  value : decimalValue whole fraction = number

/-- Filled digits write a number when the point is set. -/
theorem IsFilled.writesNumber {ds : List Char} (h : IsFilled places ds) :
    WritesNumber places (valueOf ds / 10 ^ places) (ds.take (ds.length - places))
      (ds.drop (ds.length - places)) := by
  have hlt := h.places_lt
  have hwhole := h.take
  have hlength : (ds.drop (ds.length - places)).length = places := by
    rw [List.length_drop, Nat.sub_sub_self hlt.le]
  refine ⟨⟨List.ne_nil_of_length_pos hwhole.places_lt, hwhole.digits⟩, hwhole.head?,
    fun c hc => h.digits c (List.mem_of_mem_drop hc), hlength, ?_⟩
  rw [decimalValue, List.take_append_drop, hlength]

namespace Decimal

variable {d : Decimal}

/-- The number that a decimal stands for. -/
def toRat (d : Decimal) : ℚ := d.coefficient * (10 : ℚ) ^ d.exponent

/-- No zeros are written behind the digit of zero. -/
def IsTight (d : Decimal) : Prop := d.coefficient ≠ 0 ∨ d.exponent ≤ 0

/-- The digits of a scaled decimal have its rounded value, and no zero in front that is not
needed. -/
theorem scaledDigits_spec (hd : d.IsTight) (places : ℕ) :
    (valueOf (d.scaledDigits places) : ℤ) = round (d.toRat * 10 ^ places) ∧
      (places + 1 < (d.scaledDigits places).length →
        10 ^ ((d.scaledDigits places).length - 1) ≤ valueOf (d.scaledDigits places)) := by
  have hscale : d.toRat * 10 ^ places = d.coefficient * (10 : ℚ) ^ (d.exponent + places) := by
    rw [toRat, mul_assoc, zpow_add₀ (by norm_num), zpow_natCast]
  rw [hscale, scaledDigits]
  split
  · rename_i n hn
    rw [hn]
    have hvalue : valueOf (Nat.toDigits 10 d.coefficient ++ List.replicate n '0') =
        d.coefficient * 10 ^ n := by
      rw [valueOf_append]
      simp
    rw [hvalue]
    constructor
    · have hnat : (d.coefficient : ℚ) * 10 ^ Int.ofNat n = ((d.coefficient * 10 ^ n : ℕ) : ℚ) := by
        rw [Int.ofNat_eq_natCast, zpow_natCast]
        push_cast
        rfl
      rw [hnat, round_natCast]
    · intro hmore
      rw [List.length_append, List.length_replicate] at hmore ⊢
      by_cases hone : 1 < (Nat.toDigits 10 d.coefficient).length
      · have hpow : 10 ^ ((Nat.toDigits 10 d.coefficient).length + n - 1) =
            10 ^ ((Nat.toDigits 10 d.coefficient).length - 1) * 10 ^ n := by
          rw [← Nat.pow_add]
          congr 1
          omega
        rw [hpow]
        exact Nat.mul_le_mul_right _ (pow_le_of_length_toDigits hone)
      · -- The only digit is zero where the number is, and then no zeros are written behind it.
        have hcoefficient : d.coefficient ≠ 0 := by
          rcases hd with hcoefficient | hexponent
          · exact hcoefficient
          · have hn' : d.exponent + places = (n : ℤ) := hn
            omega
        have hle : (Nat.toDigits 10 d.coefficient).length + n - 1 ≤ n := by omega
        calc 10 ^ ((Nat.toDigits 10 d.coefficient).length + n - 1)
            ≤ 10 ^ n := Nat.pow_le_pow_right (by decide) hle
          _ ≤ d.coefficient * 10 ^ n := Nat.le_mul_of_pos_left _ (Nat.pos_of_ne_zero hcoefficient)
  · rename_i n hn
    rw [hn, valueOf, Nat.ofDigitChars_ten_toDigits]
    refine ⟨?_, fun hmore => pow_le_of_length_toDigits (by omega)⟩
    rw [zpow_negSucc, ← div_eq_mul_inv, round_div_pow]
    rfl

/-- Written with a number of places, a decimal has its digits filled and rounded. -/
theorem exists_fixed (hd : d.IsTight) (places : ℕ) :
    ∃ ds, IsFilled places ds ∧ (valueOf ds : ℤ) = round (d.toRat * 10 ^ places) ∧
      ∀ negative, fixed negative d places = laidOut negative places ds := by
  obtain ⟨hvalue, htight⟩ := scaledDigits_spec hd places
  obtain ⟨_, hdigits⟩ := d.isDigits_scaledDigits places
  have hfilled := isFilled_zeros_append hdigits htight
  refine ⟨_, hfilled, by rw [valueOf_zeros_append, hvalue], fun negative => ?_⟩
  have hany : (d.scaledDigits places).any (· != '0') =
      (List.replicate (places + 1 - (d.scaledDigits places).length) '0' ++
        d.scaledDigits places).any (· != '0') := by
    rw [Bool.eq_iff_iff, any_ne_zero_iff hdigits, any_ne_zero_iff hfilled.digits,
      valueOf_zeros_append]
  rw [laidOut, withPoint_drop hfilled.places_lt, ← hany, fixed, pointed]
  by_cases hzero : places = 0
  · subst hzero
    rw [if_pos rfl, if_pos rfl, Nat.sub_zero, List.take_length]
    rfl
  · rw [if_neg hzero, if_neg hzero]
    rfl

/-- The plain text of a decimal writes just its number. -/
theorem exists_plain (hd : d.IsTight) :
    ∃ whole fraction, d.plain = withPoint whole fraction ∧ IsFilled 0 whole ∧
      WritesNumber d.places d.toRat whole fraction := by
  obtain ⟨ds, hfilled, hvalue, hfixed⟩ := exists_fixed hd d.places
  have hwrites := hfilled.writesNumber
  -- With as many places as the number has, nothing is rounded.
  have hexact : d.toRat * 10 ^ d.places =
      ((d.coefficient * 10 ^ (d.exponent + d.places).toNat : ℕ) : ℚ) := by
    have hnonneg : ((d.exponent + d.places).toNat : ℤ) = d.exponent + d.places := by
      rw [places]
      omega
    rw [toRat, mul_assoc, ← zpow_natCast, ← zpow_add₀ (by norm_num), ← hnonneg, zpow_natCast]
    push_cast
    rfl
  have hpow : (10 : ℚ) ^ d.places ≠ 0 := pow_ne_zero _ (by norm_num)
  have hnumber : (valueOf ds : ℚ) / 10 ^ d.places = d.toRat := by
    rw [hexact, round_natCast] at hvalue
    rw [div_eq_iff hpow, hexact, Int.natCast_inj.mp hvalue]
  rw [hnumber] at hwrites
  exact ⟨_, _, hfixed false, hfilled.take, hwrites⟩

/-- The number that the plain text of a decimal writes is that of the decimal. -/
theorem textValue_plain (hd : d.IsTight) : textValue d.plain = d.toRat := by
  obtain ⟨whole, fraction, hplain, hwhole, hnumber⟩ := exists_plain hd
  rw [hplain, textValue_withPoint hwhole.digits, hnumber.value]

/-- The number of a decimal, rounded to a number of places. -/
def rounded (d : Decimal) (places : ℕ) : ℚ := (round (d.toRat * 10 ^ places) : ℤ) / 10 ^ places

/-- A decimal with fixed decimals is its rounded number, with a sign unless that is zero, and
it is what rounding its plain text comes to. -/
theorem fixed_spec (hd : d.IsTight) (negative : Bool) (places : ℕ) :
    (∃ whole fraction,
      fixed negative d places =
          minus (negative && d.rounded places != 0) ++ withPoint whole fraction ∧
        WritesNumber places (d.rounded places) whole fraction) ∧
      Carry.fixed? negative d.plain places = some (fixed negative d places) := by
  obtain ⟨ds, hfilled, hvalue, hfixed⟩ := exists_fixed hd places
  have hnumber : (valueOf ds : ℚ) / 10 ^ places = d.rounded places := by
    rw [rounded, ← hvalue]
    rfl
  have hwrites := hfilled.writesNumber
  rw [hnumber] at hwrites
  have hsign : ds.any (· != '0') = (d.rounded places != 0) := by
    have hpow : (10 : ℚ) ^ places ≠ 0 := pow_ne_zero _ (by norm_num)
    rw [Bool.eq_iff_iff, any_ne_zero_iff hfilled.digits, bne_iff_ne, ← hnumber, ne_eq, ne_eq,
      div_eq_zero_iff]
    simp [hpow]
  constructor
  · refine ⟨_, _, ?_, hwrites⟩
    rw [hfixed, laidOut, hsign]
  · obtain ⟨whole, fraction, hplain, hwhole, hnumber⟩ := exists_plain hd
    obtain ⟨es, hes, hvalue', hcarry⟩ :=
      Carry.exists_fixed negative hwhole hnumber.isDigit_fraction places
    rw [hnumber.value, ← hvalue] at hvalue'
    rw [hplain, hcarry, hfixed, hes.unique hfilled (Int.natCast_inj.mp hvalue')]

end Decimal

namespace ReadBack

variable {i : ReadBack} {tie : Tie} {grid multiple : ℕ}

/-- A multiple that is chosen reads back. -/
theorem contains_of_onGrid? (h : i.onGrid? tie grid = some multiple) :
    i.contains (multiple * grid) = true := by
  unfold onGrid? at h
  dsimp only at h
  cases hbelow : i.contains (i.value / grid * grid) <;>
    cases habove : i.contains ((i.value / grid + 1) * grid) <;>
    rw [hbelow, habove] at h
  · cases h
  · cases h
    exact habove
  · cases h
    exact hbelow
  · have hone : multiple = i.value / grid ∨ multiple = i.value / grid + 1 := by
      dsimp only at h
      grind
    rcases hone with rfl | rfl
    · exact hbelow
    · exact habove

/-- Zero does not read back as a number whose midpoint below is greater. -/
theorem contains_zero (h : 0 < i.low) : i.contains 0 = false := by
  unfold contains
  split
  · simpa using fun hle => absurd h (by omega)
  · simp

/-- The coarsest decimal is not zero, unless the grid is the finest. -/
theorem coarsest_ne_zero (tie : Tie) (i : ReadBack) (h : 0 < i.low) (power : ℕ) :
    (i.coarsest tie power).1 ≠ 0 ∨ (i.coarsest tie power).2 = 0 := by
  induction power with
  | zero => exact .inr rfl
  | succ power ih =>
    unfold coarsest
    split
    · rename_i multiple hmultiple
      left
      rintro hzero
      have hcontains := contains_of_onGrid? hmultiple
      dsimp only at hzero
      rw [hzero, Nat.zero_mul, contains_zero h] at hcontains
      cases hcontains
    · exact ih

end ReadBack

/-- A rank other than zero has a magnitude. -/
theorem units_pos {rank : ℕ} (h : rank ≠ 0) : 0 < units rank := by
  have hpow : 0 < Nat.pow 2 (scale rank) := Nat.pow_pos (by decide)
  refine Nat.mul_pos ?_ hpow
  have hdiv := Nat.div_mul_le_self rank (Nat.pow 2 52)
  have hword : 0 < Nat.pow 2 52 := Nat.pow_pos (by decide)
  unfold scale
  rw [Nat.sub_mul, Nat.one_mul]
  omega

/-- The midpoint below a rank other than zero is not zero. -/
theorem low_pos {rank : ℕ} (h : rank ≠ 0) : 0 < (ReadBack.ofRank rank).low := by
  have hunits : 0 < units (rank - 1) + units rank := Nat.add_pos_right _ (units_pos h)
  unfold ReadBack.ofRank
  apply Nat.mul_pos hunits
  apply Nat.pow_pos
  decide

/-- A shortest decimal is not zero, or has no zeros behind its digits. -/
theorem isTight_shortest (tie : Tie) (rank : ℕ) : (shortest tie rank).IsTight := by
  rw [shortest]
  by_cases hrank : rank = 0
  · rw [if_pos hrank]
    exact .inr (Int.le_refl 0)
  · rw [if_neg hrank]
    extract_lets i
    have hlow : 0 < i.low := low_pos hrank
    have hcoarsest := ReadBack.coarsest_ne_zero tie i hlow (decimalBound i.value)
    -- What the search finds is taken apart without running it.
    generalize i.coarsest tie (decimalBound i.value) = found at hcoarsest ⊢
    obtain ⟨multiple, power⟩ := found
    rcases hcoarsest with hmultiple | hpower
    · exact .inl hmultiple
    · have hzero : power = 0 := hpower
      subst hzero
      have hexponent : ((0 : ℕ) : ℤ) - 1075 ≤ 0 := by decide
      exact .inr hexponent

namespace Binary64

/-- The number without its sign. -/
def abs : Binary64 → Binary64
  | .nan => .nan
  | .infinite _ => .infinite false
  | .finite _ rank => .finite false rank

/-- The plain text that is rounded: that of the magnitude, or of zero where there is none. -/
def magnitudeText (x : Binary64) : List Char :=
  (if x.isFinite then x.abs else zero false).plainText.toList

/-- The number that the plain text of the magnitude writes; what is not finite counts as
zero. -/
def plainValue (x : Binary64) : ℚ := if x.isFinite then textValue x.abs.plainText.toList else 0

/-- The magnitude rounded to a number of decimals. It is not negative, and of such numbers
the halves that are rounded up are rounded away from zero. -/
def rounded (x : Binary64) (places : ℕ) : ℚ :=
  (round (x.plainValue * 10 ^ places) : ℤ) / 10 ^ places

/-- The plain text of a magnitude is its shortest decimal. -/
theorem plainText_toList (rank : Fin finiteRanks) :
    (plainText (.finite false rank)).toList = (shortest .up rank).plain :=
  String.toList_ofList

/-- Zero has no sign with fixed decimals. -/
theorem fixed_zero (negative : Bool) (places : ℕ) :
    Decimal.fixed negative ⟨0, 0⟩ places = Decimal.fixed false ⟨0, 0⟩ places := by
  have htight : Decimal.IsTight ⟨0, 0⟩ := .inr (Int.le_refl 0)
  obtain ⟨ds, hfilled, hvalue, hfixed⟩ := Decimal.exists_fixed htight places
  have hzero : valueOf ds = 0 := by
    simpa [Decimal.toRat] using hvalue
  have hany : ds.any (· != '0') = false := by
    rw [Bool.eq_false_iff]
    intro hsome
    exact (any_ne_zero_iff hfilled.digits).mp hsome hzero
  rw [hfixed, hfixed, laidOut, laidOut, hany, Bool.and_false, Bool.and_false]

/-- What is written with fixed decimals is a decimal, the one of the plain text. -/
theorem exists_decimal (x : Binary64) : ∃ d : Decimal, d.IsTight ∧ x.magnitudeText = d.plain ∧
    x.plainValue = d.toRat ∧
      ∀ places, (x.fixedPoint places).toList = Decimal.fixed x.isNegative d places := by
  have hzero : shortest .up 0 = ⟨0, 0⟩ := if_pos rfl
  have htext : (zero false).plainText.toList = (shortest .up 0).plain := by
    have hrank : 0 < finiteRanks := by decide
    have hfinite : zero false = .finite false ⟨0, hrank⟩ := by
      rw [zero, ofRank, dif_pos hrank]
    rw [hfinite, plainText_toList]
  have hvalue : 0 = (shortest .up 0).toRat := by
    rw [hzero, Decimal.toRat, Nat.cast_zero, zero_mul]
  have hfixed (negative : Bool) (places : ℕ) :
      (String.ofList (Decimal.fixed false ⟨0, 0⟩ places)).toList =
        Decimal.fixed negative (shortest .up 0) places := by
    rw [String.toList_ofList, hzero, fixed_zero negative]
  cases x with
  | nan => exact ⟨_, isTight_shortest .up 0, htext, hvalue, hfixed false⟩
  | infinite negative => exact ⟨_, isTight_shortest .up 0, htext, hvalue, hfixed negative⟩
  | finite negative rank =>
    refine ⟨shortest .up rank, isTight_shortest _ _, plainText_toList rank, ?_, fun places => ?_⟩
    · have htext : plainValue (.finite negative rank) =
          textValue (plainText (.finite false rank)).toList := rfl
      rw [htext, plainText_toList, Decimal.textValue_plain (isTight_shortest _ _)]
    · exact String.toList_ofList

end Binary64

/-- A floating-point number with fixed decimals is written as the decimal of its plain text,
rounded with halves away from zero: without a superfluous zero before the point, with exactly
as many digits behind it as there are places, and with a minus sign just when the number has
one and does not round to zero. Its text comes from cutting and carrying the digits of the
plain text, and no cut is ever outside of them. -/
theorem fixedPoint_correctly_rounded (x : Binary64) (places : ℕ) :
    (∃ whole fraction,
      (x.fixedPoint places).toList =
          minus (x.isNegative && x.rounded places != 0) ++ withPoint whole fraction ∧
        WritesNumber places (x.rounded places) whole fraction) ∧
      Carry.fixed? x.isNegative x.magnitudeText places = some (x.fixedPoint places).toList := by
  obtain ⟨d, hd, htext, hvalue, hfixed⟩ := x.exists_decimal
  have hrounded : x.rounded places = d.rounded places := by
    rw [Binary64.rounded, hvalue, Decimal.rounded]
  rw [htext, hfixed, hrounded]
  exact Decimal.fixed_spec hd x.isNegative places

/-- A half in the text is rounded up, though the number is a little less; and a carry makes
nines longer. -/
example :
    (Numeral.binary64? "1.005".toList).map (·.fixedPoint 2) = some "1.01" ∧
      (Numeral.binary64? "-99.995".toList).map (·.fixedPoint 2) = some "-100.00" := by
  decide +kernel

end SqlText.Number
