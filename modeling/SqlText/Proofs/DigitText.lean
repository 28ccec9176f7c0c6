import SqlText.Proofs.NumeralText
import Mathlib.Tactic.Ring

/-!
# Digits and their value

Digits write a number in base ten. Of all digit texts with a given number of places after
the point, the number has exactly one that is filled: at least one digit stands before the
point, and no zero stands in front that is not needed. So two texts that are filled and have
the same value are the same text.
-/

namespace SqlText.Number

variable {ds es : List Char} {d : Char} {places : Nat}

/-- The number that digits write. -/
abbrev valueOf (ds : List Char) : Nat := Nat.ofDigitChars 10 ds 0

/-- Later digits count less. -/
theorem valueOf_append (ds es : List Char) :
    valueOf (ds ++ es) = valueOf ds * 10 ^ es.length + valueOf es := by
  rw [valueOf, Nat.ofDigitChars_append, Nat.ofDigitChars_eq_ofDigitChars_zero, Nat.mul_comm]

/-- The first digit counts most. -/
theorem valueOf_cons (d : Char) (ds : List Char) :
    valueOf (d :: ds) = (d.toNat - '0'.toNat) * 10 ^ ds.length + valueOf ds := by
  have h := valueOf_append [d] ds
  rw [List.singleton_append] at h
  rw [h]
  simp [Nat.ofDigitChars_cons]

/-- The last digit counts once. -/
theorem valueOf_concat (ds : List Char) (d : Char) :
    valueOf (ds ++ [d]) = valueOf ds * 10 + (d.toNat - '0'.toNat) := by
  rw [valueOf_append]
  simp [Nat.ofDigitChars_cons]

/-- Zeros in front count nothing. -/
@[simp] theorem valueOf_zeros_append (n : Nat) (ds : List Char) :
    valueOf (List.replicate n '0' ++ ds) = valueOf ds := by
  rw [valueOf_append]
  simp

/-- A digit is less than ten. -/
theorem digit_lt_ten (h : d.isDigit = true) : d.toNat - '0'.toNat < 10 := by
  obtain ⟨_, hle⟩ := Char.isDigit_iff_toNat.mp h
  have h0 : '0'.toNat = 48 := rfl
  have h9 : '9'.toNat = 57 := rfl
  omega

/-- Digits write a number that has no more digits. -/
theorem valueOf_lt (h : ∀ d ∈ ds, d.isDigit = true) : valueOf ds < 10 ^ ds.length := by
  induction ds with
  | nil => simp
  | cons d ds ih =>
    obtain ⟨hd, hds⟩ := List.forall_mem_cons.mp h
    have hlt := digit_lt_ten hd
    have hrest := ih hds
    rw [valueOf_cons, List.length_cons, Nat.pow_succ]
    have hstep : (d.toNat - '0'.toNat + 1) * 10 ^ ds.length ≤ 10 * 10 ^ ds.length :=
      Nat.mul_le_mul_right _ hlt
    rw [Nat.add_mul] at hstep
    omega

/-- Digits are known by their values. -/
theorem digit_eq (hd : d.isDigit = true) {e : Char} (he : e.isDigit = true)
    (h : d.toNat - '0'.toNat = e.toNat - '0'.toNat) : d = e := by
  obtain ⟨hd0, _⟩ := Char.isDigit_iff_toNat.mp hd
  obtain ⟨he0, _⟩ := Char.isDigit_iff_toNat.mp he
  exact Char.toNat_inj.mp (by omega)

/-- As many digits with the same value are the same digits. -/
theorem eq_of_valueOf_eq (hds : ∀ d ∈ ds, d.isDigit = true) (hes : ∀ d ∈ es, d.isDigit = true)
    (hlength : ds.length = es.length) (hvalue : valueOf ds = valueOf es) : ds = es := by
  induction ds generalizing es with
  | nil => exact (List.length_eq_zero_iff.mp hlength.symm).symm
  | cons d ds ih =>
    cases es with
    | nil => cases hlength
    | cons e es =>
      obtain ⟨hd, hds⟩ := List.forall_mem_cons.mp hds
      obtain ⟨he, hes⟩ := List.forall_mem_cons.mp hes
      have hlength : ds.length = es.length := Nat.succ.inj hlength
      have hlt := valueOf_lt hds
      have hlt' := valueOf_lt hes
      rw [valueOf_cons, valueOf_cons, ← hlength] at hvalue
      rw [← hlength] at hlt'
      have hfirst : d.toNat - '0'.toNat = e.toNat - '0'.toNat := by
        have hpow : 0 < 10 ^ ds.length := Nat.pow_pos (by decide)
        have h := congrArg (· / 10 ^ ds.length) hvalue
        simpa only [Nat.mul_comm _ (10 ^ ds.length), Nat.mul_add_div hpow,
          Nat.div_eq_of_lt hlt, Nat.div_eq_of_lt hlt', Nat.add_zero] using h
      rw [hfirst] at hvalue
      rw [digit_eq hd he hfirst, ih hds hes hlength (Nat.add_left_cancel hvalue)]

/-- Digits write zero when they are all zeros. -/
theorem any_ne_zero_iff (h : ∀ d ∈ ds, d.isDigit = true) :
    ds.any (· != '0') = true ↔ valueOf ds ≠ 0 := by
  induction ds with
  | nil => simp
  | cons d ds ih =>
    obtain ⟨hd, hds⟩ := List.forall_mem_cons.mp h
    have hpow : 0 < 10 ^ ds.length := Nat.pow_pos (by decide)
    rw [List.any_cons, Bool.or_eq_true, ih hds, valueOf_cons, bne_iff_ne]
    by_cases hzero : d = '0'
    · subst hzero
      simp
    · have hpos : 0 < (d.toNat - '0'.toNat) * 10 ^ ds.length := by
        refine Nat.mul_pos (Nat.pos_of_ne_zero fun h0 => hzero ?_) hpow
        exact digit_eq hd (by decide) (by simpa using h0)
      simp only [hzero, not_false_eq_true, true_or, true_iff, ne_eq]
      omega

/-- Digits for a number with some places after the point: at least one stands before them,
and no zero stands in front that is not needed. -/
structure IsFilled (places : Nat) (ds : List Char) : Prop where
  /-- There are only digits. -/
  digits : ∀ d ∈ ds, d.isDigit = true
  /-- A digit stands before the point. -/
  places_lt : places < ds.length
  /-- If there are more, the first of them counts. -/
  tight : places + 1 < ds.length → 10 ^ (ds.length - 1) ≤ valueOf ds

/-- More digits than needed have a greater value. -/
theorem IsFilled.valueOf_lt_of_length_lt (hds : IsFilled places ds) (hes : IsFilled places es)
    (h : ds.length < es.length) : valueOf ds < valueOf es :=
  calc valueOf ds < 10 ^ ds.length := valueOf_lt hds.digits
    _ ≤ 10 ^ (es.length - 1) := Nat.pow_le_pow_right (by decide) (by omega)
    _ ≤ valueOf es := hes.tight (by have := hds.places_lt; omega)

/-- A number is filled in one way. -/
theorem IsFilled.unique (hds : IsFilled places ds) (hes : IsFilled places es)
    (h : valueOf ds = valueOf es) : ds = es := by
  refine eq_of_valueOf_eq hds.digits hes.digits ?_ h
  rcases Nat.lt_trichotomy ds.length es.length with hlt | heq | hgt
  · have := hds.valueOf_lt_of_length_lt hes hlt
    omega
  · exact heq
  · have := hes.valueOf_lt_of_length_lt hds hgt
    omega

/-- The digits before the point are filled by themselves. -/
theorem IsFilled.take (h : IsFilled places ds) : IsFilled 0 (ds.take (ds.length - places)) := by
  have hlt := h.places_lt
  have hlength : (ds.take (ds.length - places)).length = ds.length - places := by
    rw [List.length_take]
    omega
  refine ⟨fun d hd => h.digits d (List.mem_of_mem_take hd), by omega, fun hmore => ?_⟩
  have htight := h.tight (by omega)
  have hdrop : valueOf (ds.drop (ds.length - places)) < 10 ^ places := by
    have hdigits : ∀ d ∈ ds.drop (ds.length - places), d.isDigit = true :=
      fun d hd => h.digits d (List.mem_of_mem_drop hd)
    have hvalue := valueOf_lt hdigits
    rwa [List.length_drop, Nat.sub_sub_self hlt.le] at hvalue
  have hvalue := valueOf_append (ds.take (ds.length - places)) (ds.drop (ds.length - places))
  rw [List.take_append_drop, List.length_drop, Nat.sub_sub_self hlt.le] at hvalue
  have hpow : 10 ^ (ds.length - 1) = 10 ^ (ds.length - places - 1) * 10 ^ places := by
    rw [← Nat.pow_add]
    congr 1
    omega
  rw [hlength]
  by_contra hless
  have hmul := Nat.mul_le_mul_right (10 ^ places) (Nat.succ_le_of_lt (Nat.lt_of_not_le hless))
  rw [Nat.succ_mul] at hmul
  omega

/-- Filled digits of an integer are a zero alone, or do not begin with one. -/
theorem IsFilled.head? (h : IsFilled 0 ds) : ds = ['0'] ∨ ds.head? ≠ some '0' := by
  obtain ⟨d, rest, rfl⟩ := List.exists_cons_of_length_pos h.places_lt
  by_cases hd : d = '0'
  · subst hd
    left
    cases rest with
    | nil => rfl
    | cons e rest =>
      have htight := h.tight (by simp)
      have hrest := valueOf_lt (List.forall_mem_cons.mp h.digits).2
      rw [valueOf_cons] at htight
      simp only [List.length_cons, Nat.add_sub_cancel, Nat.sub_self, Nat.zero_mul,
        Nat.zero_add] at htight hrest
      omega
  · right
    simpa using hd

/-- Places filled with any digits behind filled digits. -/
theorem IsFilled.append (h : IsFilled 0 ds) (hes : ∀ d ∈ es, d.isDigit = true) :
    IsFilled es.length (ds ++ es) where
  digits d hd := by
    rcases List.mem_append.mp hd with hd | hd
    · exact h.digits d hd
    · exact hes d hd
  places_lt := by
    have := h.places_lt
    rw [List.length_append]
    omega
  tight hmore := by
    rw [List.length_append] at hmore ⊢
    have htight := h.tight (by omega)
    have hpow : 10 ^ (ds.length + es.length - 1) = 10 ^ (ds.length - 1) * 10 ^ es.length := by
      rw [← Nat.pow_add]
      congr 1
      omega
    rw [hpow, valueOf_append]
    have := Nat.mul_le_mul_right (10 ^ es.length) htight
    omega

/-- Digits are filled up with zeros in front. -/
theorem isFilled_zeros_append (hds : ∀ d ∈ ds, d.isDigit = true)
    (htight : places + 1 < ds.length → 10 ^ (ds.length - 1) ≤ valueOf ds) :
    IsFilled places (List.replicate (places + 1 - ds.length) '0' ++ ds) where
  digits d hd := by
    rcases List.mem_append.mp hd with hd | hd
    · exact isDigit_of_mem_zeros d hd
    · exact hds d hd
  places_lt := by
    rw [List.length_append, List.length_replicate]
    omega
  tight h := by
    rw [List.length_append, List.length_replicate] at h
    have hnone : places + 1 - ds.length = 0 := by omega
    rw [hnone, List.replicate_zero, List.nil_append]
    exact htight (by omega)

/-- The digits of a number have no zero in front that is not needed. -/
theorem pow_le_of_length_toDigits {n : Nat} (h : 1 < (Nat.toDigits 10 n).length) :
    10 ^ ((Nat.toDigits 10 n).length - 1) ≤ n := by
  have hiff := Nat.length_toDigits_le_iff (b := 10) (n := n)
    (k := (Nat.toDigits 10 n).length - 1) (by decide) (by omega)
  by_contra hlt
  have := hiff.mpr (by omega)
  omega

/-- The digits of a natural number are filled by themselves. -/
theorem isFilled_toDigits (n : Nat) : IsFilled 0 (Nat.toDigits 10 n) where
  digits := (isDigits_toDigits n).2
  places_lt := List.length_pos_iff.mpr (isDigits_toDigits n).1
  tight h := by
    rw [valueOf, Nat.ofDigitChars_ten_toDigits]
    exact pow_le_of_length_toDigits h

end SqlText.Number
