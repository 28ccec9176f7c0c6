import SqlText.Proofs.NumeralText
import SqlText.Proofs.Rounding

/-!
# The texts of integers

An integer is written exactly as an integer, as a string and as raw text. As a number with fixed
decimals it is rounded to a floating-point number first: what is written is an integer that is
rounded to the same number, with zeros behind the point. Up to `2 ^ 53` that is the integer
itself, and beyond it may be another one.
-/

namespace SqlText

open Number

namespace Number

variable {n places : ℕ}

/-- An integer with zeros behind the point. -/
def withZeros (z : ℤ) (places : ℕ) : String :=
  String.ofList (withPoint (toString z).toList (List.replicate places '0'))

/-- A decimal that is an integer is written with its digits and zeros behind the point. -/
theorem Decimal.fixed_of_integer {c e : ℕ} (hd : IsTight ⟨c, e⟩) (negative : Bool) (places : ℕ) :
    fixed negative ⟨c, e⟩ places =
      minus (negative && c * 10 ^ e != 0) ++
        withPoint (Nat.toDigits 10 (c * 10 ^ e)) (List.replicate places '0') := by
  obtain ⟨ds, hfilled, hvalue, hfixed⟩ := exists_fixed hd places
  have hzeros : IsFilled places
      (Nat.toDigits 10 (c * 10 ^ e) ++ List.replicate places '0') := by
    simpa using (isFilled_toDigits (c * 10 ^ e)).append (isDigit_of_mem_zeros (n := places))
  have hdigits : valueOf (Nat.toDigits 10 (c * 10 ^ e) ++ List.replicate places '0') =
      c * 10 ^ e * 10 ^ places := by
    rw [valueOf_append]
    simp
  have hexact : toRat ⟨c, e⟩ * 10 ^ places = ((c * 10 ^ e * 10 ^ places : ℕ) : ℚ) := by
    rw [toRat, zpow_natCast]
    push_cast
    rfl
  rw [hexact, round_natCast, Nat.cast_inj] at hvalue
  obtain rfl := hfilled.unique hzeros (hvalue.trans hdigits.symm)
  have hany : (Nat.toDigits 10 (c * 10 ^ e) ++ List.replicate places '0').any (· != '0') =
      (c * 10 ^ e != 0) := by
    rw [Bool.eq_iff_iff, any_ne_zero_iff hzeros.digits, hdigits, bne_iff_ne, ne_eq, ne_eq,
      Nat.mul_eq_zero, or_iff_left (Nat.pow_pos (by decide)).ne']
  rw [hfixed, laidOut, hany, List.length_append, List.length_replicate, Nat.add_sub_cancel,
    List.take_left, List.drop_left]

/-- The integer of a sign and a magnitude. -/
def ofSign (negative : Bool) (m : ℕ) : ℤ := if negative then -m else m

/-- The magnitude is that of the integer. -/
@[simp] theorem natAbs_ofSign (negative : Bool) (m : ℕ) : (ofSign negative m).natAbs = m := by
  cases negative <;> simp [ofSign]

/-- The sign is that of the integer, but for zero. -/
@[simp] theorem ofSign_neg (negative : Bool) (m : ℕ) :
    decide (ofSign negative m < 0) = (negative && m != 0) := by
  rw [Bool.eq_iff_iff, decide_eq_true_iff]
  cases negative <;> simp [ofSign, Nat.pos_iff_ne_zero]

/-- An integer has its own sign and magnitude. -/
@[simp] theorem ofSign_natAbs (z : ℤ) : ofSign (z < 0) z.natAbs = z := by
  by_cases hz : z < 0
  · rw [ofSign, if_pos (decide_eq_true hz)]
    omega
  · rw [ofSign, if_neg (by simpa using hz)]
    omega

/-- The text of an integer is that of its digits, after the sign unless it is zero. -/
theorem withZeros_ofSign (negative : Bool) (m places : ℕ) :
    withZeros (ofSign negative m) places =
      String.ofList (minus (negative && m != 0) ++
        withPoint (Nat.toDigits 10 m) (List.replicate places '0')) := by
  have hpoint (sign digits zeros : List Char) :
      withPoint (sign ++ digits) zeros = sign ++ withPoint digits zeros := by
    unfold withPoint
    split <;> simp
  rw [withZeros, toList_toString, ofSign_neg, natAbs_ofSign, hpoint]

/-- A number that is rounded like the magnitude is rounded like the integer when it has its
sign. -/
theorem ofInt_ofSign {z : ℤ} {m : ℕ} (hm : m ≠ 0) (h : nearestRank m 1 = nearestRank z.natAbs 1) :
    Binary64.ofInt (ofSign (z < 0) m) = Binary64.ofInt z := by
  rw [Binary64.ofInt, Binary64.nearest, natAbs_ofSign, ofSign_neg, h, bne_iff_ne.mpr hm,
    Bool.and_true]
  rfl

/-- An integer of 64 bits is rounded to a finite number, and its decimal is rounded. -/
theorem fixedPoint_ofInt {z : ℤ} (hz : z.natAbs ≤ 2 ^ 63) (places : ℕ) :
    (Binary64.ofInt z).fixedPoint places =
      String.ofList (Decimal.fixed (z < 0) (shortest .up (nearestRank z.natAbs 1)) places) := by
  have hfinite : nearestRank z.natAbs 1 < finiteRanks :=
    calc nearestRank z.natAbs 1 < (1076 + 11) * 2 ^ 52 :=
          (nearestRank_one_lt_iff 11).mpr (by omega)
      _ ≤ finiteRanks := by decide
  rw [Binary64.ofInt, Binary64.nearest, Binary64.ofRank, dif_pos hfinite]
  rfl

/-- An integer of 64 bits is written as an integer that is rounded to the same number. -/
theorem exists_fixedPoint_ofInt {z : ℤ} (hz : z.natAbs ≤ 2 ^ 63) :
    ∃ m : ℤ, (∀ places, (Binary64.ofInt z).fixedPoint places = withZeros m places) ∧
      Binary64.ofInt m = Binary64.ofInt z ∧ (z.natAbs ≤ 2 ^ 53 → m = z) := by
  rcases eq_or_ne z.natAbs 0 with hzero | hne
  · obtain rfl : z = 0 := Int.natAbs_eq_zero.mp hzero
    have hrank : nearestRank (Int.natAbs 0) 1 = 0 := by decide +kernel
    have hshortest : shortest .up 0 = ⟨0, (0 : ℕ)⟩ := if_pos rfl
    refine ⟨0, fun places => ?_, rfl, fun _ => rfl⟩
    rw [fixedPoint_ofInt hz, hrank, hshortest, Decimal.fixed_of_integer (.inr le_rfl)]
    exact (withZeros_ofSign false (0 * 10 ^ 0) places).symm
  · obtain ⟨c, e, hshortest, hc, hrank⟩ := exists_shortest .up hne
    have hm : c * 10 ^ e ≠ 0 := Nat.mul_ne_zero hc (Nat.pow_pos (by decide)).ne'
    refine ⟨ofSign (z < 0) (c * 10 ^ e), fun places => ?_, ofInt_ofSign hm hrank,
      fun hsmall => ?_⟩
    · rw [fixedPoint_ofInt hz, hshortest, Decimal.fixed_of_integer (.inl hc), withZeros_ofSign]
    · have hexact : c * 10 ^ e = z.natAbs := by
        rcases Nat.lt_or_eq_of_le hsmall with hlt | heq
        · exact eq_of_nearestRank_eq hm hne hlt hrank
        · -- The next integer is rounded to the bound too, so its decimal is looked at.
          have hbound : shortest .up (nearestRank (2 ^ 53) 1) = ⟨2 ^ 53, (0 : ℕ)⟩ := by
            decide +kernel
          rw [heq, hbound, Decimal.mk.injEq, Nat.cast_inj] at hshortest
          rw [← hshortest.1, ← hshortest.2, heq]
          rfl
      rw [hexact, ofSign_natAbs]

end Number

namespace Escaper

/-- A character of a numeral stands for itself in a string. -/
theorem stringChar_of_isDigit {c : Char} (h : c.isDigit = true ∨ c = '-') :
    stringChar c = [c] := by
  unfold stringChar
  split <;> first | rfl | simp at h

/-- An integer needs no escaping. -/
theorem stringBody_intText (n : Int64) : stringBody (intText n) = intText n := by
  have hchars : ∀ c ∈ (intText n).toList, stringChar c = [c] := by
    intro c hc
    rw [toList_intText, List.mem_append] at hc
    refine stringChar_of_isDigit ?_
    rcases hc with hc | hc
    · right
      unfold minus at hc
      split at hc
      · exact List.mem_singleton.mp hc
      · cases hc
    · exact .inl ((isDigits_toDigits _).2 c hc)
  rw [stringBody, List.flatMap_congr hchars, List.flatMap_singleton', String.ofList_toList]

end Escaper

namespace Builder

/-- With the rules of MySQL a string is escaped without a notice. -/
theorem perform_quoted_mysql {b : Builder} (hb : b.escaper = .mysql) (raw : String) :
    b.perform [.quoted raw] = pure (enclosed '\'' (Escaper.stringBody raw)) := by
  simp [perform, carryOut, hb, Escaper.mysql, Outcome.before, Outcome.andThen, Except.map,
    Outcome.after, pure]

/-- An integer is written exactly where an integer, a string or raw text is asked for, by a
strict builder and by a lenient one, without a report. Where a number with fixed decimals is
asked for, or a field is declared as one, what is written is an integer with zeros behind the
point that is rounded to the same floating-point number: the integer itself up to `2 ^ 53`. -/
theorem integer_texts (b : Builder) (n : Int64) (precision : UInt32) :
    b.integer (.int n) = pure (intText n) ∧
      b.raw (.int n) = pure (intText n) ∧
      (b.escaper = .mysql → b.string (.int n) = pure (enclosed '\'' (intText n))) ∧
      ∃ m : ℤ, b.float precision (.int n) = pure (withZeros m precision.toNat) ∧
        b.typed .float precision (.int n) = pure (withZeros m precision.toNat) ∧
        Binary64.ofInt m = Binary64.ofInt n.toInt ∧ (n.toInt.natAbs ≤ 2 ^ 53 → m = n.toInt) := by
  have hrange : n.toInt.natAbs ≤ 2 ^ 63 := by
    have hlow := n.le_toInt
    have hhigh := n.toInt_lt
    omega
  obtain ⟨m, htext, hsame, hexact⟩ := exists_fixedPoint_ofInt hrange
  have hfloat : b.float precision (.int n) = pure (withZeros m precision.toNat) := by
    have hdraft : Literal.float b.strict precision (.int n) =
        [.fixed ((Binary64.ofInt n.toInt).fixedPoint precision.toNat)] := by
      cases b.strict <;> rfl
    rw [float, hdraft, htext, perform_fixed]
  refine ⟨?_, perform_fixed b _, fun hmysql => ?_, m, hfloat, hfloat, hsame, hexact⟩
  · have hdraft : Literal.integer b.strict (.int n) = [.fixed (intText n)] := by
      cases b.strict <;> rfl
    rw [integer, hdraft, perform_fixed]
  · have hdraft : Literal.string (.int n) = [.quoted (intText n)] := rfl
    rw [string, hdraft, perform_quoted_mysql hmysql, Escaper.stringBody_intText]

/-- A strict builder writes another integer, one less, for `2 ^ 53 + 1`. -/
theorem float_loses_integer :
    (float ⟨.mysql, true⟩ 0 (.int 9007199254740993)).result = .ok "9007199254740992" ∧
      (integer ⟨.mysql, true⟩ (.int 9007199254740993)).result = .ok "9007199254740993" := by
  have htext : (Binary64.ofInt 9007199254740993).fixedPoint 0 = "9007199254740992" := by
    decide +kernel
  constructor
  · rw [float]
    change (perform _ [.fixed ((Binary64.ofInt 9007199254740993).fixedPoint 0)]).result = _
    rw [htext, perform_fixed]
    rfl
  · rfl

end Builder

end SqlText
