import SqlText.Json.Token
import SqlText.Proofs.DigitText
import SqlText.Proofs.Json.Tree
import Mathlib.Data.List.TakeWhile

/-!
# The leaves of JSON texts

A leaf is read as it was written, and its reader stops where the text of the leaf ends,
whatever follows. A string ends at its quote. A number has no end of its own: it must not be
followed by what could go on with it. Every integer is read back, and every floating-point
number whose own text reads back.
-/

namespace SqlText

open Number

namespace Json

variable {cs rest : List Char} {c : Char}

/-! ## Strings -/

/-- A character is read from its escape, and from nothing more. -/
theorem exists_unit (c : Char) :
    ∃ u, (∀ done rest, stringUnits? done (escaped c ++ rest) = stringUnits? (u :: done) rest) ∧
      ∀ us, joinUnits? (u :: us) = (joinUnits? us).map (c :: ·) := by
  unfold escaped
  split
  case h_8 hquote hbackslash _ _ _ _ _ =>
    by_cases hcontrol : c.toNat < 0x20
    · -- A control character is a code unit that is no half of a pair.
      have hdigits : ∀ n < 0x20,
          hexUnit? '0' '0' (Nat.digitChar (n / 16)) (Nat.digitChar (n % 16)) = some n := by decide
      have hunit := hdigits _ hcontrol
      refine ⟨.unit c.toNat, fun done rest => ?_, fun us => ?_⟩
      · rw [if_pos hcontrol]
        change stringUnits? done ('\\' :: 'u' :: '0' :: '0' :: _ :: _ :: rest) = _
        rw [stringUnits?, hunit]
      · have hleading : isLeading c.toNat = false := by
          simp only [isLeading, Bool.and_eq_false_iff, decide_eq_false_iff_not]
          omega
        have htrailing : isTrailing c.toNat = false := by
          simp only [isTrailing, Bool.and_eq_false_iff, decide_eq_false_iff_not]
          omega
        rw [joinUnits?.eq_def]
        dsimp only
        rw [hleading, htrailing, if_neg Bool.false_ne_true, if_neg Bool.false_ne_true,
          Char.ofNat_toNat]
    · refine ⟨.char c, fun done rest => ?_, fun us => rfl⟩
      rw [if_neg hcontrol, List.singleton_append, stringUnits?, if_neg hcontrol]
      · exact hquote
      · intro _ _ _ _ _ h
        exact absurd h hbackslash
      · intro _ _ h
        exact absurd h hbackslash
  all_goals exact ⟨.char _, fun _ _ => rfl, fun _ => rfl⟩

/-- A string is read up to its quote. -/
theorem stringUnits?_escaped (cs rest : List Char) :
    ∃ us, (∀ done, stringUnits? done (cs.flatMap escaped ++ '"' :: rest) =
        some (done.reverse ++ us, rest)) ∧ joinUnits? us = some cs := by
  induction cs with
  | nil => exact ⟨[], fun done => by simp [stringUnits?], rfl⟩
  | cons c cs ih =>
    obtain ⟨u, hread, hjoin⟩ := exists_unit c
    obtain ⟨us, hreads, hjoins⟩ := ih
    refine ⟨u :: us, fun done => ?_, by rw [hjoin, hjoins, Option.map_some]⟩
    rw [List.flatMap_cons, List.append_assoc, hread, hreads, List.reverse_cons,
      List.append_assoc, List.singleton_append]

/-- A string is a token. -/
theorem token?_quoted (s : String) (rest : List Char) :
    token? '"' (s.toList.flatMap escaped ++ '"' :: rest) = some (.leaf (.string s), rest) := by
  obtain ⟨us, hreads, hjoin⟩ := stringUnits?_escaped s.toList rest
  have hunits : ofUnits us = .string s := by
    rw [ofUnits, hjoin]
    dsimp only
    rw [String.ofList_toList]
  simp only [token?, hreads, List.reverse_nil, List.nil_append, Option.map_some, hunits]

/-! ## Numbers -/

/-- What follows cannot go on with a number. -/
def Stops (rest : List Char) : Prop :=
  ∀ c ∈ rest.head?, c.isDigit = false ∧ c ≠ '.' ∧ c ≠ 'e' ∧ c ≠ 'E'

/-- Characters of a kind are taken as before, when one of another kind follows. -/
theorem span_append {p : Char → Bool} (cs : List Char) (hrest : ∀ c ∈ rest.head?, p c = false) :
    (cs ++ rest).takeWhile p = cs.takeWhile p ∧
      (cs ++ rest).dropWhile p = cs.dropWhile p ++ rest := by
  induction cs with
  | nil =>
    cases rest with
    | nil => exact ⟨rfl, rfl⟩
    | cons c rest =>
      have hc : ¬p c = true := Bool.eq_false_iff.mp (hrest c rfl)
      exact ⟨List.takeWhile_cons_of_neg hc, List.dropWhile_cons_of_neg hc⟩
  | cons c cs ih =>
    rw [List.cons_append]
    by_cases hc : p c = true
    · rw [List.takeWhile_cons_of_pos hc, List.dropWhile_cons_of_pos hc,
        List.takeWhile_cons_of_pos hc, List.dropWhile_cons_of_pos hc, ih.1, ih.2]
      exact ⟨rfl, rfl⟩
    · rw [List.takeWhile_cons_of_neg hc, List.dropWhile_cons_of_neg hc,
        List.takeWhile_cons_of_neg hc, List.dropWhile_cons_of_neg hc]
      exact ⟨rfl, rfl⟩

/-- What stops a number stops its digits. -/
theorem Stops.not_digit (h : Stops rest) : ∀ c ∈ rest.head?, c.isDigit = false :=
  fun c hc => (h c hc).1

/-- A fraction is read before whatever stops it. -/
theorem fraction?_append {f : Option (List Char)} {after : List Char}
    (h : fraction? cs = some (f, after)) (hrest : Stops rest) :
    fraction? (cs ++ rest) = some (f, after ++ rest) := by
  unfold fraction? at h
  split at h
  · rename_i tail
    obtain ⟨htake, hdrop⟩ := span_append tail hrest.not_digit
    rw [List.cons_append, fraction?, htake, hdrop]
    dsimp only at h ⊢
    split at h
    · cases h
    · rename_i hdigits
      cases h
      rw [if_neg hdigits]
  · rename_i hpoint
    cases h
    have hnone : ∀ tail, cs ++ rest ≠ '.' :: tail := by
      intro tail htail
      cases cs with
      | nil =>
        rw [List.nil_append] at htail
        have hstop := hrest '.' (by rw [htail]; rfl)
        exact hstop.2.1 rfl
      | cons c cs =>
        rw [List.cons_append] at htail
        injection htail with hc
        exact hpoint cs (by rw [hc])
    unfold fraction?
    split
    · rename_i tail htail
      exact absurd htail (hnone tail)
    · rfl

/-- A power of ten is read before whatever stops it. -/
theorem exponent?_append {p : Option Int} {after : List Char}
    (h : exponent? cs = some (p, after)) (hrest : Stops rest) :
    exponent? (cs ++ rest) = some (p, after ++ rest) := by
  cases cs with
  | nil =>
    cases h
    cases rest with
    | nil => rfl
    | cons c rest =>
      have hletter : ¬(c = 'e' ∨ c = 'E') := not_or.mpr (hrest c rfl).2.2
      rw [List.nil_append, exponent?, if_neg hletter]
  | cons c tail =>
    rw [List.cons_append]
    unfold exponent? at h ⊢
    dsimp only at h ⊢
    split at h
    · rename_i hletter
      rw [if_pos hletter]
      split at h
      · cases h
      · rename_i hdigits
        cases h
        -- The digits after the letter are there, so what follows is not taken for a sign.
        have hsign : Numeral.sign (tail ++ rest) =
            ((Numeral.sign tail).1, (Numeral.sign tail).2 ++ rest) := by
          cases tail with
          | nil => exact absurd rfl hdigits
          | cons c tail =>
            rw [List.cons_append]
            unfold Numeral.sign
            split <;> simp_all
        obtain ⟨htake, hdrop⟩ := span_append (Numeral.sign tail).2 hrest.not_digit
        rw [hsign]
        dsimp only
        rw [htake, hdrop, if_neg hdigits]
    · rename_i hletter
      cases h
      rw [if_neg hletter, List.cons_append]

/-- A number after a minus sign. -/
theorem number?_minus (cs : List Char) : number? ('-' :: cs) = unsigned? true cs := rfl

/-- A number without a sign. -/
theorem number?_of_head? (h : cs.head? ≠ some '-') : number? cs = unsigned? false cs := by
  unfold number?
  split
  · exact absurd rfl h
  · rfl

/-- A number without its sign is read before whatever stops it. -/
theorem unsigned?_append {negative : Bool} {t : NumberText} {after : List Char}
    (h : unsigned? negative cs = some (t, after)) (hrest : Stops rest) :
    unsigned? negative (cs ++ rest) = some (t, after ++ rest) := by
  obtain ⟨htake, hdrop⟩ := span_append cs hrest.not_digit
  unfold unsigned? at h ⊢
  dsimp only at h ⊢
  rw [htake, hdrop]
  split at h
  · cases h
  · rename_i hwhole
    rw [if_neg hwhole]
    obtain ⟨⟨fraction, afterFraction⟩, hfraction, h⟩ := Option.bind_eq_some_iff.mp h
    obtain ⟨⟨power, last⟩, hpower, h⟩ := Option.bind_eq_some_iff.mp h
    cases h
    rw [fraction?_append hfraction hrest]
    dsimp only [Option.bind_eq_bind, Option.bind_some]
    rw [exponent?_append hpower hrest]
    rfl

/-- A number is read before whatever stops it. -/
theorem number?_append {t : NumberText} {after : List Char} (h : number? cs = some (t, after))
    (hrest : Stops rest) : number? (cs ++ rest) = some (t, after ++ rest) := by
  by_cases hminus : cs.head? = some '-'
  · obtain ⟨tail, rfl⟩ := List.head?_eq_some_iff.mp hminus
    rw [List.cons_append, number?_minus]
    exact unsigned?_append h hrest
  · have hcs : cs ≠ [] := by
      rintro rfl
      cases h
    have hhead : (cs ++ rest).head? ≠ some '-' := by
      rwa [List.head?_append_of_ne_nil _ hcs]
    rw [number?_of_head? hminus] at h
    rw [number?_of_head? hhead]
    exact unsigned?_append h hrest

/-- What is read as a number is a token. -/
theorem token?_of_number? {t : NumberText} (h : number? (c :: cs) = some (t, rest)) :
    token? c cs = some (.leaf (ofNumberText t), rest) := by
  unfold token?
  split
  case h_11 => 
    rw [h]
    rfl
  all_goals cases h

/-- As many digits as 64 bits hold are all taken. -/
theorem takeDigits_eq {n : Nat} (cs : List Char) (h : Nat.ofDigitChars 10 cs n < Nat.pow 2 64) :
    takeDigits n cs = (Nat.ofDigitChars 10 cs n, 0) := by
  induction cs generalizing n with
  | nil => rfl
  | cons c cs ih =>
    rw [Nat.ofDigitChars_cons] at h ⊢
    have hle : 10 * n + (c.toNat - '0'.toNat) ≤
        Nat.ofDigitChars 10 cs (10 * n + (c.toNat - '0'.toNat)) := by
      rw [Nat.ofDigitChars_eq_ofDigitChars_zero]
      have hpow : 0 < 10 ^ cs.length := Nat.pow_pos (by decide)
      have := Nat.le_mul_of_pos_left (10 * n + (c.toNat - '0'.toNat)) hpow
      omega
    rw [takeDigits, if_pos (Nat.lt_of_le_of_lt hle h), ih h]

/-- Digits without a zero in front that is not needed are a number by themselves. -/
theorem unsigned?_digits (negative : Bool) (h : IsFilled 0 cs) :
    unsigned? negative cs = some (⟨negative, cs, none, none⟩, []) := by
  have htake : cs.takeWhile Char.isDigit = cs := List.takeWhile_eq_self_iff.mpr h.digits
  have hdrop : cs.dropWhile Char.isDigit = [] := List.dropWhile_eq_nil_iff.mpr h.digits
  have hempty : cs.isEmpty = false := List.isEmpty_eq_false_iff.mpr (List.ne_nil_of_length_pos h.places_lt)
  have hzero : (cs.head? == some '0' && decide (1 < cs.length)) = false := by
    rcases h.head? with rfl | hhead
    · rfl
    · rw [beq_eq_false_iff_ne.mpr hhead, Bool.false_and]
  rw [unsigned?, htake, hdrop]
  dsimp only
  rw [hempty, hzero]
  rfl

/-- The text of an integer is a number of digits alone. -/
theorem number?_intText (n : Int64) : number? (intText n).toList =
    some (⟨n.toInt < 0, Nat.toDigits 10 n.toInt.natAbs, none, none⟩, []) := by
  have hdigits := unsigned?_digits (n.toInt < 0) (isFilled_toDigits n.toInt.natAbs)
  rw [toList_intText]
  by_cases hneg : n.toInt < 0
  · rw [decide_eq_true hneg] at hdigits ⊢
    exact hdigits
  · rw [decide_eq_false hneg] at hdigits ⊢
    have hhead : (Nat.toDigits 10 n.toInt.natAbs).head? ≠ some '-' := by
      intro hminus
      have hdigit := (isDigits_toDigits _).2 '-' (List.mem_of_head? hminus)
      cases hdigit
    rw [minus, if_neg Bool.false_ne_true, List.nil_append, number?_of_head? hhead]
    exact hdigits

/-- An integer is known by its sign and its digits. -/
theorem integerNumber_natAbs (n : Int64) :
    integerNumber (n.toInt < 0) n.toInt.natAbs = .int n := by
  have hlow := n.le_toInt
  have hhigh := n.toInt_lt
  have hpow : Nat.pow 2 63 = 9223372036854775808 := rfl
  unfold integerNumber
  by_cases hneg : n.toInt < 0
  · have hrange : 0 < n.toInt.natAbs ∧ n.toInt.natAbs ≤ Nat.pow 2 63 := by omega
    have hback : -(n.toInt.natAbs : Int) = n.toInt := by omega
    rw [decide_eq_true hneg, if_pos rfl, if_pos hrange, hback, Int64.ofInt_toInt]
  · have hrange : n.toInt.natAbs < Nat.pow 2 63 := by omega
    have hback : (n.toInt.natAbs : Int) = n.toInt := by omega
    rw [decide_eq_false hneg, if_neg Bool.false_ne_true, if_pos hrange, hback, Int64.ofInt_toInt]

/-- An integer is read back from its text. -/
theorem value?_intText (n : Int64) :
    (NumberText.mk (n.toInt < 0) (Nat.toDigits 10 n.toInt.natAbs) none none).value? =
      some (.int n) := by
  have hlow := n.le_toInt
  have hhigh := n.toInt_lt
  have hpow : Nat.pow 2 64 = 18446744073709551616 := rfl
  have htake : takeDigits 0 (Nat.toDigits 10 n.toInt.natAbs) = (n.toInt.natAbs, 0) := by
    rw [takeDigits_eq, Nat.ofDigitChars_ten_toDigits]
    rw [Nat.ofDigitChars_ten_toDigits]
    omega
  rw [NumberText.value?, htake, ← integerNumber_natAbs]
  rfl

/-- The number that a text is. -/
def numberOf? (text : String) : Option Json.Number :=
  match number? text.toList with
  | some (t, []) => t.value?
  | _ => none

/-- The text is a single token with this tree, before whatever stops a number. -/
def IsLeaf (text : List Char) (j : Json) : Prop :=
  ∃ c cs, text = c :: cs ∧ isSpace c = false ∧
    ∀ rest, Stops rest → token? c (cs ++ rest) = some (.leaf j, rest)

/-- A number is a leaf. -/
theorem isLeaf_number {t : NumberText} (h : number? cs = some (t, [])) :
    IsLeaf cs (ofNumberText t) := by
  cases cs with
  | nil => cases h
  | cons c cs =>
    have hspace : isSpace c = false := by
      rw [Bool.eq_false_iff]
      intro hspace
      simp only [isSpace, Bool.or_eq_true, decide_eq_true_eq] at hspace
      rcases hspace with ((rfl | rfl) | rfl) | rfl <;> cases h
    exact ⟨c, cs, rfl, hspace, fun rest hrest => token?_of_number? (number?_append h hrest)⟩

/-- A text that is a number is a leaf with the number. -/
theorem isLeaf_of_numberOf? {text : String} {n : Json.Number} (h : numberOf? text = some n) :
    IsLeaf text.toList (.number n) := by
  unfold numberOf? at h
  split at h
  · rename_i t hnumber
    have hleaf : ofNumberText t = .number n := by rw [ofNumberText, h]
    rw [← hleaf]
    exact isLeaf_number hnumber
  · cases h

/-- A string in its quotes is a leaf. -/
theorem isLeaf_quoted (s : String) : IsLeaf (quoted s) (.string s) := by
  refine ⟨'"', s.toList.flatMap escaped ++ ['"'], rfl, rfl, fun rest _ => ?_⟩
  rw [← List.append_cons]
  exact token?_quoted s rest

end Json

/-- The number is read back from its own text. -/
def Number.Binary64.ReadsBack (x : Binary64) : Prop :=
  Json.numberOf? x.jsonText = some (.float x)

instance : DecidablePred Binary64.ReadsBack :=
  fun x => inferInstanceAs (Decidable (Json.numberOf? x.jsonText = some (.float x)))

/-- Only a number that is finite has a text that reads back. -/
theorem Number.Binary64.ReadsBack.isFinite {x : Binary64} (h : x.ReadsBack) :
    x.isFinite = true := by
  have hnull : Json.numberOf? "null" = none := rfl
  cases x with
  | finite => rfl
  | nan => exact nomatch hnull.symm.trans h
  | infinite => exact nomatch hnull.symm.trans h

namespace Value

/-- A floating-point number is read back from its own text. -/
def ReadsBack : Value → Prop
  | .float x => x.ReadsBack
  | _ => True

instance : DecidablePred ReadsBack
  | .float x => inferInstanceAs (Decidable x.ReadsBack)
  | .null | .bool _ | .int _ | .str _ | .list _ | .map _ => .isTrue trivial

open Json in
/-- A value without parts is a leaf. -/
theorem isLeaf_json {v : Value} (hleaf : v.isComposite = false) (hreads : v.ReadsBack) :
    IsLeaf v.json v.tree := by
  cases v with
  | null => exact ⟨_, _, rfl, rfl, fun _ _ => rfl⟩
  | bool b => cases b <;> exact ⟨_, _, rfl, rfl, fun _ _ => rfl⟩
  | int n =>
    have hnumber : numberOf? (intText n) = some (.int n) := by
      rw [numberOf?, number?_intText]
      exact value?_intText n
    exact isLeaf_of_numberOf? hnumber
  | float x => exact isLeaf_of_numberOf? hreads
  | str s => exact isLeaf_quoted s
  | list => cases hleaf
  | map => cases hleaf

end Value

end SqlText
