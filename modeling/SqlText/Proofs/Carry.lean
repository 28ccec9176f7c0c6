import SqlText.Proofs.DigitText
import Mathlib.Algebra.Order.Round
import Mathlib.Data.Rat.Floor
import Mathlib.Tactic.FieldSimp
import Mathlib.Tactic.Linarith
import Mathlib.Tactic.NormNum

/-!
# Rounding a decimal text

A decimal text is rounded on its digits: those behind the last place are cut off, and where
the first of them is a five or more, a one is carried to those that stay. Every cut is within
the digits, also where the carry makes the number longer, and what comes out are the digits
of the rounded number, filled up with zeros.
-/

namespace SqlText.Number

variable {ds whole fraction : List Char} {places : Nat}

/-- Digits with a point before the fraction, if there is one. -/
def withPoint (whole fraction : List Char) : List Char :=
  if fraction = [] then whole else whole ++ '.' :: fraction

/-- The number that digits before and after a point write. -/
def decimalValue (whole fraction : List Char) : ℚ :=
  valueOf (whole ++ fraction) / 10 ^ fraction.length

/-- The number that a text of digits, with a point or without, writes. -/
def textValue (text : List Char) : ℚ :=
  decimalValue (text.takeWhile Char.isDigit) ((text.dropWhile Char.isDigit).drop 1)

namespace Carry

/-- One more than digits, given with the last digit first: nines become zeros, and the one
that is carried to the front becomes a digit. -/
def increment : List Char → List Char
  | [] => ['1']
  | d :: ds => if d = '9' then '0' :: increment ds else Nat.digitChar (d.toNat - '0'.toNat + 1) :: ds

/-- One more in the last place. -/
def roundUp (ds : List Char) : List Char := (increment ds.reverse).reverse

/-- The characters between two positions, if the text goes so far. -/
def slice? (cs : List Char) (start stop : Nat) : Option (List Char) :=
  if start ≤ stop ∧ stop ≤ cs.length then some ((cs.take stop).drop start) else none

/-- The digits of a decimal text with a number of places after the point: filled up with
zeros, or cut off and rounded by the first digit that is cut off. -/
def digits? (whole fraction : List Char) (places : Nat) : Option (List Char) :=
  if fraction.length ≤ places then
    some (whole ++ fraction ++ List.replicate (places - fraction.length) '0')
  else do
    let kept ← slice? fraction 0 places
    let next ← fraction[places]?
    pure (if '5' ≤ next then roundUp (whole ++ kept) else whole ++ kept)

/-- A decimal text rounded to a number of places, the sign of zero dropped; none if a cut were
outside of the digits. -/
def fixed? (negative : Bool) (text : List Char) (places : Nat) : Option (List Char) := do
  let whole := text.takeWhile (· != '.')
  let fraction := (text.dropWhile (· != '.')).drop 1
  let digits ← digits? whole fraction places
  if digits.length < places then none
  else
    let cut := digits.length - places
    let before ← slice? digits 0 cut
    let after ← slice? digits cut digits.length
    pure (minus (negative && digits.any (· != '0')) ++
      if places = 0 then before else before ++ '.' :: after)

/-- One more than digits: as many digits, or one more where all were nines. -/
theorem increment_spec (h : ∀ d ∈ ds, d.isDigit = true) :
    (∀ d ∈ increment ds, d.isDigit = true) ∧
      valueOf (increment ds).reverse = valueOf ds.reverse + 1 ∧
      ((increment ds).length = ds.length ∨
        (increment ds).length = ds.length + 1 ∧ valueOf ds.reverse + 1 = 10 ^ ds.length) := by
  induction ds with
  | nil => exact ⟨by simp [increment], rfl, .inr ⟨rfl, rfl⟩⟩
  | cons d ds ih =>
    obtain ⟨hd, hds⟩ := List.forall_mem_cons.mp h
    obtain ⟨hdigits, hvalue, hlength⟩ := ih hds
    have hlast (e : Char) (es : List Char) :
        valueOf (e :: es).reverse = valueOf es.reverse * 10 + (e.toNat - '0'.toNat) := by
      rw [List.reverse_cons, valueOf_concat]
    unfold increment
    split
    · rename_i hnine
      subst hnine
      refine ⟨List.forall_mem_cons.mpr ⟨by decide, hdigits⟩, ?_, ?_⟩
      · rw [hlast, hlast, hvalue]
        have h0 : '0'.toNat - '0'.toNat = 0 := rfl
        have h9 : '9'.toNat - '0'.toNat = 9 := rfl
        omega
      · have h9 : '9'.toNat - '0'.toNat = 9 := rfl
        rw [hlast, List.length_cons, List.length_cons, Nat.pow_succ]
        omega
    · rename_i hnine
      have hlt : d.toNat - '0'.toNat + 1 < 10 := by
        have hdigit := digit_lt_ten hd
        have hne : d.toNat - '0'.toNat ≠ 9 := fun h9 => hnine (digit_eq hd (by decide) h9)
        omega
      refine ⟨List.forall_mem_cons.mpr ⟨?_, hds⟩, ?_, .inl rfl⟩
      · rw [Nat.isDigit_digitChar, decide_eq_true hlt]
      · have hvalue := Nat.toNat_digitChar_sub_48_of_lt_ten hlt
        have h0 : '0'.toNat = 48 := rfl
        rw [hlast, hlast, h0]
        rw [h0] at hvalue
        omega

/-- One more in the last place of filled digits. -/
theorem isFilled_roundUp (h : IsFilled places ds) :
    IsFilled places (roundUp ds) ∧ valueOf (roundUp ds) = valueOf ds + 1 := by
  have hreverse : ∀ d ∈ ds.reverse, d.isDigit = true :=
    fun d hd => h.digits d (List.mem_reverse.mp hd)
  obtain ⟨hdigits, hvalue, hlength⟩ := increment_spec hreverse
  rw [List.reverse_reverse] at hvalue hlength
  rw [List.length_reverse] at hlength
  have hlt := h.places_lt
  refine ⟨⟨fun d hd => hdigits d (List.mem_reverse.mp hd), ?_, fun hmore => ?_⟩, hvalue⟩
  · rw [roundUp, List.length_reverse]
    omega
  · rw [roundUp, List.length_reverse] at hmore ⊢
    rw [hvalue]
    rcases hlength with hsame | ⟨hmore', hnines⟩
    · have htight := h.tight (by omega)
      rw [hsame]
      omega
    · -- All digits were nines: what comes out is a one and zeros.
      rw [hmore', Nat.add_sub_cancel, hnines]

end Carry

/-- Half of a unit added before cutting off is rounding. -/
theorem round_div_pow (n k : ℕ) :
    round ((n : ℚ) / 10 ^ (k + 1)) = ((n / 10 ^ k + 5) / 10 : ℕ) := by
  have hpow : 0 < 10 ^ k := Nat.pow_pos (by decide)
  have hnat : (n / 10 ^ k + 5) / 10 = (n + 5 * 10 ^ k) / 10 ^ (k + 1) := by
    rw [← Nat.add_mul_div_right _ _ hpow, Nat.div_div_eq_div_mul, Nat.pow_succ]
  have hsum : (n : ℚ) / 10 ^ (k + 1) + 1 / 2 =
      ((n + 5 * 10 ^ k : ℕ) : ℚ) / ((10 ^ (k + 1) : ℕ) : ℚ) := by
    push_cast
    field_simp
    ring
  rw [round_eq, hsum, Rat.floor_natCast_div_natCast, hnat]
  exact (Int.natCast_div _ _).symm

namespace Carry

/-- The first digit that is cut off decides whether the rest is rounded up. -/
theorem round_up_iff (n : ℕ) {d : Char} (hd : d.isDigit = true) :
    (n * 10 + (d.toNat - '0'.toNat) + 5) / 10 = if '5' ≤ d then n + 1 else n := by
  have hlt := digit_lt_ten hd
  have h0 : '0'.toNat = 48 := rfl
  have h5 : '5' ≤ d ↔ 53 ≤ d.toNat := by
    rw [Char.le_def, UInt32.le_iff_toNat_le]
    rfl
  split
  · rename_i hle
    have := h5.mp hle
    omega
  · rename_i hle
    have : ¬53 ≤ d.toNat := fun h => hle (h5.mpr h)
    omega

/-- With no more digits than places after the point, nothing is cut off. -/
theorem round_decimalValue_padded (hfew : fraction.length ≤ places) :
    round (decimalValue whole fraction * 10 ^ places) =
      (valueOf (whole ++ fraction) * 10 ^ (places - fraction.length) : ℕ) := by
  have hpow : (10 : ℚ) ^ places = 10 ^ fraction.length * 10 ^ (places - fraction.length) := by
    rw [← pow_add]
    congr 1
    omega
  have hvalue : decimalValue whole fraction * 10 ^ places =
      ((valueOf (whole ++ fraction) * 10 ^ (places - fraction.length) : ℕ) : ℚ) := by
    rw [decimalValue, hpow]
    push_cast
    field_simp
  rw [hvalue, round_natCast]

/-- Cutting off digits and rounding by the first of them is rounding the number. -/
theorem round_decimalValue_cut {kept rest : List Char} {next : Char}
    (hnext : next.isDigit = true) (hrest : ∀ d ∈ rest, d.isDigit = true) :
    round (decimalValue whole (kept ++ next :: rest) * 10 ^ kept.length) =
      (if '5' ≤ next then valueOf (whole ++ kept) + 1 else valueOf (whole ++ kept) : ℕ) := by
  have hvalue : decimalValue whole (kept ++ next :: rest) * 10 ^ kept.length =
      (valueOf (whole ++ (kept ++ next :: rest)) : ℚ) / 10 ^ (rest.length + 1) := by
    have hpow : (10 : ℚ) ^ (kept ++ next :: rest).length =
        10 ^ (rest.length + 1) * 10 ^ kept.length := by
      rw [← pow_add, List.length_append, List.length_cons, Nat.add_comm]
    rw [decimalValue, hpow]
    field_simp
  have hcut : valueOf (whole ++ (kept ++ next :: rest)) / 10 ^ rest.length =
      valueOf (whole ++ kept) * 10 + (next.toNat - '0'.toNat) := by
    have hpow : 0 < 10 ^ rest.length := Nat.pow_pos (by decide)
    have hregroup : whole ++ (kept ++ next :: rest) = (whole ++ kept ++ [next]) ++ rest := by
      simp
    rw [hregroup, valueOf_append, valueOf_concat, Nat.mul_comm _ (10 ^ rest.length),
      Nat.mul_add_div hpow, Nat.div_eq_of_lt (valueOf_lt hrest), Nat.add_zero]
  rw [hvalue, round_div_pow, hcut, round_up_iff _ hnext]

/-- The digits of a text with a number of places are there, filled and rounded. -/
theorem exists_digits (hwhole : IsFilled 0 whole) (hfraction : ∀ d ∈ fraction, d.isDigit = true)
    (places : ℕ) : ∃ ds, digits? whole fraction places = some ds ∧ IsFilled places ds ∧
      (valueOf ds : ℤ) = round (decimalValue whole fraction * 10 ^ places) := by
  unfold digits?
  by_cases hfew : fraction.length ≤ places
  · rw [if_pos hfew]
    have hzeros : ∀ d ∈ fraction ++ List.replicate (places - fraction.length) '0',
        d.isDigit = true := by
      intro d hd
      rcases List.mem_append.mp hd with hd | hd
      · exact hfraction d hd
      · exact isDigit_of_mem_zeros d hd
    have hlength : (fraction ++ List.replicate (places - fraction.length) '0').length = places := by
      rw [List.length_append, List.length_replicate]
      omega
    have hfilled := hwhole.append hzeros
    rw [hlength, ← List.append_assoc] at hfilled
    refine ⟨_, rfl, hfilled, ?_⟩
    rw [round_decimalValue_padded hfew, valueOf_append]
    simp
  · rw [if_neg hfew]
    have hlt : places < fraction.length := Nat.lt_of_not_le hfew
    have hsplit : fraction =
        fraction.take places ++ fraction[places] :: fraction.drop (places + 1) := by
      rw [← List.drop_eq_getElem_cons hlt, List.take_append_drop]
    have hkept : (fraction.take places).length = places := List.length_take_of_le hlt.le
    have hslice : slice? fraction 0 places = some (fraction.take places) :=
      if_pos ⟨Nat.zero_le _, hlt.le⟩
    rw [hslice, List.getElem?_eq_getElem hlt]
    generalize fraction.take places = kept at hsplit hkept
    generalize fraction[places] = next at hsplit
    generalize fraction.drop (places + 1) = rest at hsplit
    subst hsplit
    subst hkept
    have hfilled := hwhole.append fun d hd => hfraction d (List.mem_append_left _ hd)
    have hnext : next.isDigit = true := hfraction next (by simp)
    have hrest : ∀ d ∈ rest, d.isDigit = true := fun d hd => hfraction d (by simp [hd])
    refine ⟨_, rfl, ?_⟩
    rw [round_decimalValue_cut hnext hrest]
    split
    · obtain ⟨hup, hone⟩ := isFilled_roundUp hfilled
      exact ⟨hup, by rw [hone]⟩
    · exact ⟨hfilled, rfl⟩

end Carry

/-- A number with its digits: a minus sign unless the number is zero, and a point before the
places. -/
def laidOut (negative : Bool) (places : ℕ) (ds : List Char) : List Char :=
  minus (negative && ds.any (· != '0')) ++
    withPoint (ds.take (ds.length - places)) (ds.drop (ds.length - places))

/-- The point stands before as many digits as there are places. -/
theorem withPoint_drop (hplaces : places < ds.length) :
    withPoint (ds.take (ds.length - places)) (ds.drop (ds.length - places)) =
      if places = 0 then ds.take (ds.length - places)
      else ds.take (ds.length - places) ++ '.' :: ds.drop (ds.length - places) := by
  have hnil : ds.drop (ds.length - places) = [] ↔ places = 0 := by
    rw [List.drop_eq_nil_iff]
    omega
  rw [withPoint]
  simp only [hnil]

/-- A text of digits with a point is taken apart at the point. -/
theorem span_withPoint {p : Char → Bool} (hpoint : p '.' = false)
    (hwhole : ∀ d ∈ whole, p d = true) (fraction : List Char) :
    (withPoint whole fraction).takeWhile p = whole ∧
      ((withPoint whole fraction).dropWhile p).drop 1 = fraction := by
  unfold withPoint
  split
  · rename_i hnil
    subst hnil
    have htake : (whole ++ []).takeWhile p = whole ++ [] :=
      List.takeWhile_append_of_pos hwhole
    have hdrop : (whole ++ []).dropWhile p = [] := List.dropWhile_append_of_pos hwhole
    rw [List.append_nil] at htake hdrop
    rw [htake, hdrop]
    exact ⟨rfl, rfl⟩
  · have hstop : ¬p '.' = true := by simp [hpoint]
    rw [List.takeWhile_append_of_pos hwhole, List.dropWhile_append_of_pos hwhole,
      List.takeWhile_cons_of_neg hstop, List.dropWhile_cons_of_neg hstop]
    exact ⟨List.append_nil _, rfl⟩

/-- The value of a text is that of its digits. -/
theorem textValue_withPoint (hwhole : ∀ d ∈ whole, d.isDigit = true) :
    textValue (withPoint whole fraction) = decimalValue whole fraction := by
  obtain ⟨htake, hdrop⟩ := span_withPoint (by decide) hwhole fraction
  rw [textValue, htake, hdrop]

/-- A decimal text is rounded with every cut within its digits, also where a carry makes the
number longer. -/
theorem Carry.exists_fixed (negative : Bool) (hwhole : IsFilled 0 whole)
    (hfraction : ∀ d ∈ fraction, d.isDigit = true) (places : ℕ) :
    ∃ ds, IsFilled places ds ∧
      (valueOf ds : ℤ) = round (decimalValue whole fraction * 10 ^ places) ∧
      fixed? negative (withPoint whole fraction) places = some (laidOut negative places ds) := by
  obtain ⟨ds, hds, hfilled, hvalue⟩ := exists_digits hwhole hfraction places
  have hpoint : ∀ d ∈ whole, (d != '.') = true := by
    intro d hd
    have hdigit := hwhole.digits d hd
    rw [bne_iff_ne]
    rintro rfl
    cases hdigit
  obtain ⟨htake, hdrop⟩ := span_withPoint (by decide) hpoint fraction
  have hlt := hfilled.places_lt
  have hbefore : slice? ds 0 (ds.length - places) = some (ds.take (ds.length - places)) :=
    if_pos ⟨Nat.zero_le _, Nat.sub_le _ _⟩
  have hafter : slice? ds (ds.length - places) ds.length = some (ds.drop (ds.length - places)) := by
    rw [slice?, if_pos ⟨Nat.sub_le _ _, Nat.le_refl _⟩, List.take_length]
  refine ⟨ds, hfilled, hvalue, ?_⟩
  simp only [fixed?, htake, hdrop, hds, Option.bind_eq_bind, Option.bind_some,
    if_neg (Nat.not_lt.mpr hlt.le), hbefore, hafter, laidOut, withPoint_drop hlt]
  rfl

end SqlText.Number
