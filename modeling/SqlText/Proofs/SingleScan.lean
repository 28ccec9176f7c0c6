import SqlText.Proofs.TemplateSpelling

/-!
# Templates in a single scan

The tokenizer takes a template apart in two passes: the first cuts it at the letter markers,
the second looks in every piece for a question mark with digits and an `f`, and passes over
what it finds if the digits write too large a number. A single scan from left to right, which
decides at every question mark what it begins and gathers all other characters, comes to the
same tokens.
-/

namespace SqlText.Template

variable {cs rest digits : List Char} {kind : Placeholder} {precision : UInt32} {c : Char}

/-! ## The second pass as matches -/

/-- What the second pass looks for: a question mark, digits, and an `f`, whatever number the
digits write. -/
def decimalsMatch? : List Char → Option (List Char × List Char)
  | '?' :: cs =>
    match cs.dropWhile Char.isDigit with
    | 'f' :: rest => some (cs.takeWhile Char.isDigit, rest)
    | _ => none
  | _ => none

/-- A fixed-point marker is a match whose digits write a number of decimals. -/
theorem floatMarker?_eq_bind (cs : List Char) : floatMarker? cs =
    (decimalsMatch? cs).bind fun (digits, rest) => (precision? digits).map (·, rest) := by
  cases cs with
  | nil => rfl
  | cons c cs =>
    by_cases hc : c = '?'
    · subst hc
      simp only [floatMarker?, decimalsMatch?]
      cases cs.dropWhile Char.isDigit with
      | nil => rfl
      | cons d rest =>
        by_cases hd : d = 'f'
        · subst hd
          rfl
        · simp [hd]
    · simp [floatMarker?, decimalsMatch?, hc]

/-- A match is a question mark, digits, and an `f`. -/
theorem eq_of_decimalsMatch? (h : decimalsMatch? cs = some (digits, rest)) :
    cs = '?' :: (digits ++ 'f' :: rest) ∧ ∀ d ∈ digits, d.isDigit = true := by
  unfold decimalsMatch? at h
  split at h
  · rename_i tail
    split at h
    · rename_i hdrop
      cases h
      refine ⟨?_, List.all_eq_true.mp List.all_takeWhile⟩
      rw [← hdrop, List.takeWhile_append_dropWhile]
    · cases h
  · cases h

/-- The matches of the second pass. -/
def decimalsMatch : Text.Mark (List Char) where
  read? := decimalsMatch?
  shorter h := by
    rw [(eq_of_decimalsMatch? h).1, List.length_cons, List.length_append, List.length_cons]
    omega

/-- The tokens of a piece of text from the matches in it; `text` is what has been kept since
the last marker. A match whose number needs more than 32 bits is passed over and kept as text
with what stands before and behind it. -/
def matchTokens (text : List Char) : List (List Char × List Char) → List Token
  | [] => Token.ofText text
  | (digits, behind) :: later =>
    match precision? digits with
    | some precision =>
      Token.ofText text ++ .marker (.float precision) :: matchTokens behind later
    | none => matchTokens (text ++ '?' :: (digits ++ 'f' :: behind)) later

/-- The tokens of a piece of text without letter markers, from its matches. -/
def pieceTokens (cs : List Char) : List Token :=
  matchTokens (decimalsMatch.cut cs).1 (decimalsMatch.cut cs).2

/-- The tokens of a template by two passes. -/
def twoPassTokens (cs : List Char) : List Token :=
  let (text, later) := letterMark.cut cs
  pieceTokens text ++ later.flatMap fun (kind, text) => .marker kind :: pieceTokens text

/-- A match that is no marker belongs to the text before the next marker. -/
theorem cut_of_too_large (hmatch : decimalsMatch? cs = some (digits, rest))
    (hprecision : precision? digits = none) :
    floatMark.cut cs =
      ('?' :: (digits ++ 'f' :: (floatMark.cut rest).1), (floatMark.cut rest).2) := by
  obtain ⟨rfl, hdigits⟩ := eq_of_decimalsMatch? hmatch
  have hnone : floatMark.read? ('?' :: (digits ++ 'f' :: rest)) = none := by
    change floatMarker? ('?' :: (digits ++ 'f' :: rest)) = none
    rw [floatMarker?_eq_bind, hmatch]
    simp [hprecision]
  have hplain : ∀ d ∈ digits ++ ['f'], ∀ cs, floatMark.read? (d :: cs) = none :=
    fun d hd cs => floatMarker?_of_ne (ne_question_of_mem hdigits d hd) cs
  have hpass := floatMark.cut_append_of_none hplain rest
  simp only [List.append_assoc, List.singleton_append] at hpass
  rw [floatMark.cut_of_none hnone, hpass]

/-- Passing over the matches that are too large gives the same tokens as not looking for
them. -/
theorem matchTokens_cut (front cs : List Char) :
    matchTokens (front ++ (decimalsMatch.cut cs).1) (decimalsMatch.cut cs).2 =
      Token.ofText (front ++ (floatMark.cut cs).1) ++
        (floatMark.cut cs).2.flatMap fun (precision, text) =>
          .marker (.float precision) :: Token.ofText text := by
  induction cs using Text.Mark.scan_induction decimalsMatch generalizing front with
  | nil => simp [matchTokens]
  | mark cs digits rest hmatch ih =>
    rw [decimalsMatch.cut_of_read hmatch, matchTokens]
    cases hprecision : precision? digits with
    | some precision =>
      have hfloat : floatMark.read? cs = some (precision, rest) := by
        change floatMarker? cs = _
        rw [floatMarker?_eq_bind, show decimalsMatch? cs = _ from hmatch]
        simp [hprecision]
      have hrest := ih []
      simp only [List.nil_append] at hrest
      simp [floatMark.cut_of_read hfloat, hrest]
    | none =>
      have hkept := ih (front ++ '?' :: (digits ++ ['f']))
      rw [cut_of_too_large hmatch hprecision]
      simpa using hkept
  | plain c cs hnone ih =>
    have hfloat : floatMark.read? (c :: cs) = none := by
      change floatMarker? (c :: cs) = _
      rw [floatMarker?_eq_bind, show decimalsMatch? (c :: cs) = none from hnone]
      rfl
    rw [decimalsMatch.cut_of_none hnone, floatMark.cut_of_none hfloat]
    simpa using ih (front ++ [c])

/-- The tokenizer is the two passes. -/
theorem tokensOf_eq_twoPassTokens (cs : List Char) : tokensOf cs = twoPassTokens cs := by
  have hpiece : floatTokens = pieceTokens := funext fun cs => (matchTokens_cut [] cs).symm
  rw [tokensOf, twoPassTokens, hpiece]

/-! ## The single scan -/

/-- The number of decimals that digits at the front of a text go on to write, up to an `f`;
`value` is what the digits before them write. -/
def decimals? (value : Nat) : List Char → Option (UInt32 × List Char)
  | [] => none
  | c :: rest =>
    if c.isDigit then decimals? (10 * value + (c.toNat - '0'.toNat)) rest
    else if c = 'f' ∧ value < Nat.pow 2 32 then some (value.toUInt32, rest)
    else none

/-- The marker that a question mark in front of a text begins: the one of a letter, else a
fixed-point marker. -/
def markerBehind? : List Char → Option (Placeholder × List Char)
  | 'n' :: rest => some (.name, rest)
  | 's' :: rest => some (.string, rest)
  | 'i' :: rest => some (.integer, rest)
  | 'u' :: rest => some (.fields, rest)
  | 'a' :: rest => some (.set, rest)
  | 'p' :: rest => some (.raw, rest)
  | cs => (decimals? 0 cs).map fun (precision, rest) => (.float precision, rest)

/-- Digit by digit the number is read that the digits write together. -/
theorem decimals?_eq (value : Nat) (cs : List Char) : decimals? value cs =
    match cs.dropWhile Char.isDigit with
    | 'f' :: rest =>
      let n := Nat.ofDigitChars 10 (cs.takeWhile Char.isDigit) value
      if n < Nat.pow 2 32 then some (n.toUInt32, rest) else none
    | _ => none := by
  induction cs generalizing value with
  | nil => rfl
  | cons c cs ih =>
    by_cases hdigit : c.isDigit = true
    · rw [decimals?, if_pos hdigit, ih]
      simp [hdigit, Nat.ofDigitChars_cons]
    · by_cases hend : c = 'f'
      · simp [decimals?, hend]
      · simp [decimals?, hdigit, hend]

/-- Behind a question mark, digits within the limit and an `f` are a fixed-point marker. -/
theorem decimals?_zero (cs : List Char) : decimals? 0 cs = floatMarker? ('?' :: cs) := by
  rw [decimals?_eq, floatMarker?]
  cases cs.dropWhile Char.isDigit with
  | nil => rfl
  | cons d rest =>
    by_cases hd : d = 'f'
    · subst hd
      simp only [precision?]
      split <;> rfl
    · simp [hd]

/-- A single scan decides at a question mark as the two passes do: letter markers first. -/
theorem markerBehind?_eq (cs : List Char) : markerBehind? cs =
    (letterMarker? ('?' :: cs)).or
      ((floatMarker? ('?' :: cs)).map fun (precision, rest) => (.float precision, rest)) := by
  unfold markerBehind?
  split
  case h_7 hn hs hi hu ha hp =>
    have hletter : letterMarker? ('?' :: cs) = none := by
      cases hread : letterMarker? ('?' :: cs) with
      | none => rfl
      | some found =>
        obtain ⟨letter, hform, hkind⟩ := letterMarker?_eq_some_iff.mp hread
        obtain ⟨_, rfl⟩ := List.cons.inj hform
        have hmem := mem_letters_iff.mpr ⟨_, hkind⟩
        simp only [List.mem_cons, List.not_mem_nil, or_false] at hmem
        rcases hmem with rfl | rfl | rfl | rfl | rfl | rfl
        exacts [(hn _ rfl).elim, (hs _ rfl).elim, (hi _ rfl).elim, (hu _ rfl).elim,
          (ha _ rfl).elim, (hp _ rfl).elim]
    rw [decimals?_zero, hletter, Option.none_or]
  all_goals rfl

/-- A marker that a question mark begins is one of the two kinds. -/
theorem markerBehind?_cases (h : markerBehind? cs = some (kind, rest)) :
    letterMarker? ('?' :: cs) = some (kind, rest) ∨
      ∃ precision, kind = .float precision ∧
        floatMarker? ('?' :: cs) = some (precision, rest) := by
  rw [markerBehind?_eq, Option.or_eq_some_iff] at h
  rcases h with hletter | ⟨-, hfloat⟩
  · exact .inl hletter
  · obtain ⟨⟨precision, behind⟩, hread, hpair⟩ := Option.map_eq_some_iff.mp hfloat
    cases hpair
    exact .inr ⟨precision, rfl, hread⟩

/-- A marker that a question mark begins is not empty. -/
theorem markerBehind?_length (h : markerBehind? cs = some (kind, rest)) :
    rest.length < cs.length + 1 := by
  rcases markerBehind?_cases h with hletter | ⟨_, _, hfloat⟩
  · exact letterMarker?_length hletter
  · exact floatMarker?_length hfloat

/-- A marker that a question mark begins is one of the template. -/
theorem letters_of_markerBehind? (h : markerBehind? cs = some (kind, rest)) :
    letters ('?' :: cs) = .marker kind :: letters rest := by
  rcases markerBehind?_cases h with hletter | ⟨_, rfl, hfloat⟩
  · exact letters_of_letterMarker? hletter
  · exact letters_of_floatMarker? hfloat

/-- A question mark that begins no marker is plain text. -/
theorem letters_of_not_markerBehind? (h : markerBehind? cs = none) :
    letters ('?' :: cs) = .literal (String.singleton '?') :: letters cs := by
  rw [markerBehind?_eq, Option.or_eq_none_iff, Option.map_eq_none_iff] at h
  exact letters_of_none h.1 h.2

/-- Every character but a question mark is plain text. -/
theorem letters_of_ne (h : c ≠ '?') (cs : List Char) :
    letters (c :: cs) = .literal (String.singleton c) :: letters cs :=
  letters_of_none (letterMarker?_of_ne h cs) (floatMarker?_of_ne h cs)

/-- A scan on its way through a template. -/
structure Scan where
  /-- The tokens that are complete. -/
  tokens : List Token := []
  /-- The plain text since the last of them. -/
  literal : List Char := []
  /-- The number of markers that have been taken. -/
  taken : Nat := 0
  deriving DecidableEq, Repr

namespace Scan

variable {s : Scan}

/-- A marker is taken; the plain text in front of it is complete. -/
def take (s : Scan) (kind : Placeholder) : Scan :=
  ⟨s.tokens ++ Token.ofText s.literal ++ [.marker kind], [], s.taken + 1⟩

/-- Any other character is added to the plain text. -/
def add (s : Scan) (c : Char) : Scan :=
  { s with literal := s.literal ++ [c] }

/-- Scans the rest of a template from left to right. -/
def run (s : Scan) (cs : List Char) : Scan :=
  match cs with
  | [] => s
  | c :: cs =>
    if c = '?' then
      match h : markerBehind? cs with
      | some (kind, rest) =>
        have : rest.length < cs.length + 1 := markerBehind?_length h
        (s.take kind).run rest
      | none => (s.add c).run cs
    else (s.add c).run cs
termination_by cs.length

/-- The tokens at the end of the template. -/
def finish (s : Scan) : List Token := s.tokens ++ Token.ofText s.literal

/-- Letters in front of a marker, or of nothing, are gathered to the plain text of a scan. -/
theorem gather_literal (text : List Char) {ts : List Token}
    (h : ∀ t ∈ (gather ts).head?, t.isMarker = true) :
    gather (text.map (fun c => .literal (String.singleton c)) ++ ts) =
      Token.ofText text ++ gather ts := by
  cases text with
  | nil => rfl
  | cons c text => exact gather_letters_append (List.cons_ne_nil c text) h

/-- From wherever a scan stands, it gathers what is left letter by letter. -/
theorem finish_run (s : Scan) (cs : List Char) : (s.run cs).finish =
    s.tokens ++ gather (s.literal.map (fun c => .literal (String.singleton c)) ++ letters cs) := by
  fun_induction run s cs with
  | case1 s =>
    have hnone : ∀ t ∈ (gather []).head?, t.isMarker = true := by simp [gather]
    rw [finish, letters_nil, gather_literal s.literal hnone, gather, List.append_nil]
  | case2 s cs kind rest hmarker _ ih =>
    have hhead : ∀ t ∈ (gather (.marker kind :: letters rest)).head?, t.isMarker = true := by
      simp [gather, Token.isMarker]
    rw [ih, letters_of_markerBehind? hmarker, gather_literal s.literal hhead]
    simp [take, gather]
  | case3 s cs hnone ih =>
    rw [ih, letters_of_not_markerBehind? hnone]
    simp [add]
  | case4 s c cs hc ih =>
    rw [ih, letters_of_ne hc]
    simp [add]

/-- The number of markers taken is that of the markers among the tokens. -/
def IsCounted (s : Scan) : Prop := s.taken = s.tokens.countP Token.isMarker

/-- Plain text holds no marker. -/
theorem countP_ofText (text : List Char) : (Token.ofText text).countP Token.isMarker = 0 := by
  cases text <;> simp [Token.ofText, Token.isMarker]

/-- A marker that is taken is counted. -/
theorem IsCounted.take (h : s.IsCounted) (kind : Placeholder) : (s.take kind).IsCounted := by
  have hmarker : [Token.marker kind].countP Token.isMarker = 1 := rfl
  simp only [IsCounted, Scan.take, List.countP_append, countP_ofText, hmarker] at h ⊢
  omega

/-- A character is not counted. -/
theorem IsCounted.add (h : s.IsCounted) (c : Char) : (s.add c).IsCounted := h

/-- A scan counts the markers that it takes. -/
theorem IsCounted.run (h : s.IsCounted) (cs : List Char) : (s.run cs).IsCounted := by
  fun_induction Scan.run s cs with
  | case1 s => exact h
  | case2 s cs kind rest _ _ ih => exact ih (h.take kind)
  | case3 s cs _ ih => exact ih (h.add _)
  | case4 s c cs _ ih => exact ih (h.add c)

end Scan

/-- The two passes of the tokenizer, of which the second passes over the fixed-point markers
whose number of decimals is too large, give the tokens of a single scan from left to right; and
a template asks for as many arguments as that scan takes markers. -/
theorem tokens_eq_single_scan (template : String) :
    tokens template = twoPassTokens template.toList ∧
      tokens template = (Scan.run {} template.toList).finish ∧
      placeholderCount template = (Scan.run {} template.toList).taken := by
  have hscan : tokens template = (Scan.run {} template.toList).finish := by
    rw [Scan.finish_run]
    exact (gather_letters (canonical_tokensOf template.toList)).symm
  have hstart : Scan.IsCounted {} := rfl
  have hcount := hstart.run template.toList
  refine ⟨tokensOf_eq_twoPassTokens template.toList, hscan, ?_⟩
  rw [placeholderCount, hscan, Scan.finish, List.countP_append, Scan.countP_ofText, Nat.add_zero]
  exact hcount.symm

/-- A question mark in front of a marker, and decimals of more than 32 bits. -/
example : (Scan.run {} "??02f ?4294967296f?nf".toList).finish =
    [.literal "?", .marker (.float 2), .literal " ?4294967296f", .marker .name,
      .literal "f"] := by
  cbv

end SqlText.Template
