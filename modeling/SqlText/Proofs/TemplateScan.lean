import SqlText.Template.Token

/-!
# Templates in one pass

The two passes of the tokenizer never disagree about a marker: a fixed-point marker holds
no question mark but its first character, so the first pass cannot cut it, and a marker
that the second pass finds between two cuts is there in the whole template. Taken letter
by letter, the tokens are therefore those of a single scan from left to right, and two
templates one after the other are scanned one after the other unless a marker could begin
in the first and end in the second.
-/

namespace SqlText

namespace Text.Mark

variable {α : Type} (m : Mark α) {c : Char} {cs rest : List Char} {a : α}

/-- Where nothing is left, nothing is cut. -/
@[simp] theorem cut_nil : m.cut [] = ([], []) := by rw [cut]

/-- A mark at the front of a text is cut off. -/
theorem cut_of_read (h : m.read? cs = some (a, rest)) :
    m.cut cs = ([], (a, (m.cut rest).1) :: (m.cut rest).2) := by
  cases cs with
  | nil => exact absurd (m.shorter h) (Nat.not_lt_zero _)
  | cons c cs =>
    rw [cut]
    split
    · rename_i a' rest' h'
      rw [h] at h'
      cases h'
      rfl
    · rename_i h'
      rw [h] at h'
      cases h'

/-- A character where no mark begins belongs to the text before the first mark. -/
theorem cut_of_none (h : m.read? (c :: cs) = none) :
    m.cut (c :: cs) = (c :: (m.cut cs).1, (m.cut cs).2) := by
  rw [cut]
  split
  · rename_i a' rest' h'
    rw [h] at h'
    cases h'
  · rfl

/-- The text before the first mark stands at the front. -/
theorem cut_fst_prefix (cs : List Char) : (m.cut cs).1 <+: cs := by
  induction cs with
  | nil => simp
  | cons c cs ih =>
    cases h : m.read? (c :: cs) with
    | none =>
      rw [cut_of_none m h]
      exact List.prefix_cons_inj c |>.mpr ih
    | some found =>
      rw [cut_of_read m h]
      exact List.nil_prefix

/-- Characters where no mark begins are passed over. -/
theorem cut_append_of_none {front : List Char}
    (h : ∀ c ∈ front, ∀ cs, m.read? (c :: cs) = none) (rest : List Char) :
    m.cut (front ++ rest) = (front ++ (m.cut rest).1, (m.cut rest).2) := by
  induction front with
  | nil => rfl
  | cons c front ih =>
    obtain ⟨hc, hfront⟩ := List.forall_mem_cons.mp h
    rw [List.cons_append, cut_of_none m (hc _), ih hfront]
    rfl

end Text.Mark

/-- A token letter by letter: plain text as a literal for each of its characters. -/
def Token.letters : Token → List Token
  | .literal text => text.toList.map fun c => .literal (String.singleton c)
  | .marker kind => [.marker kind]

namespace Template

variable {cs ds rest : List Char} {kind : Placeholder} {precision : UInt32} {c : Char}

/-- A marker with a letter is a question mark and its letter. -/
theorem letterMarker?_eq_some_iff : letterMarker? cs = some (kind, rest) ↔
    ∃ letter, cs = '?' :: letter :: rest ∧ Placeholder.ofLetter? letter = some kind := by
  constructor
  · intro h
    unfold letterMarker? at h
    split at h
    · rename_i letter tail
      obtain ⟨found, hletter, hpair⟩ := Option.map_eq_some_iff.mp h
      cases hpair
      exact ⟨letter, rfl, hletter⟩
    · cases h
  · rintro ⟨letter, rfl, hletter⟩
    simp [letterMarker?, hletter]

/-- A fixed-point marker is a question mark, digits within the limit, and an `f`. -/
theorem floatMarker?_eq_some_iff : floatMarker? cs = some (precision, rest) ↔
    ∃ digits, cs = '?' :: (digits ++ 'f' :: rest) ∧ (∀ d ∈ digits, d.isDigit = true) ∧
      precision? digits = some precision := by
  constructor
  · intro h
    unfold floatMarker? at h
    split at h
    · rename_i tail
      split at h
      · rename_i after hdrop
        obtain ⟨found, hprecision, hpair⟩ := Option.map_eq_some_iff.mp h
        cases hpair
        refine ⟨tail.takeWhile Char.isDigit, ?_, fun d hd => ?_, hprecision⟩
        · rw [← hdrop, List.takeWhile_append_dropWhile]
        · exact List.all_eq_true.mp List.all_takeWhile d hd
      · cases h
    · cases h
  · rintro ⟨digits, rfl, hdigits, hprecision⟩
    have hf : Char.isDigit 'f' = false := rfl
    have hdrop : (digits ++ 'f' :: rest).dropWhile Char.isDigit = 'f' :: rest := by
      rw [List.dropWhile_append_of_pos hdigits, List.dropWhile_cons_of_neg (by simp [hf])]
    have htake : (digits ++ 'f' :: rest).takeWhile Char.isDigit = digits := by
      rw [List.takeWhile_append_of_pos hdigits, List.takeWhile_cons_of_neg (by simp [hf]),
        List.append_nil]
    simp only [floatMarker?, hdrop, htake, hprecision, Option.map_some]

/-- Where no question mark stands, no marker with a letter begins. -/
theorem letterMarker?_of_ne (h : c ≠ '?') (cs : List Char) : letterMarker? (c :: cs) = none := by
  cases hread : letterMarker? (c :: cs) with
  | none => rfl
  | some found =>
    obtain ⟨letter, hform, _⟩ := letterMarker?_eq_some_iff.mp hread
    exact absurd (List.cons.inj hform).1 h

/-- Where no question mark stands, no fixed-point marker begins. -/
theorem floatMarker?_of_ne (h : c ≠ '?') (cs : List Char) : floatMarker? (c :: cs) = none := by
  cases hread : floatMarker? (c :: cs) with
  | none => rfl
  | some found =>
    obtain ⟨digits, hform, _⟩ := floatMarker?_eq_some_iff.mp hread
    exact absurd (List.cons.inj hform).1 h

/-- No question mark stands among digits and an `f`. -/
theorem ne_question_of_mem {digits : List Char} (hdigits : ∀ d ∈ digits, d.isDigit = true) :
    ∀ c ∈ digits ++ ['f'], c ≠ '?' := by
  rintro c hc rfl
  rcases List.mem_append.mp hc with hc | hc
  · exact absurd (hdigits _ hc) (by decide)
  · exact absurd (List.mem_singleton.mp hc) (by decide)

/-- A marker with a letter is read whatever follows it. -/
theorem letterMarker?_append (h : letterMarker? cs = some (kind, rest)) (ds : List Char) :
    letterMarker? (cs ++ ds) = some (kind, rest ++ ds) := by
  obtain ⟨letter, rfl, hletter⟩ := letterMarker?_eq_some_iff.mp h
  exact letterMarker?_eq_some_iff.mpr ⟨letter, rfl, hletter⟩

/-- A fixed-point marker is read whatever follows it. -/
theorem floatMarker?_append (h : floatMarker? cs = some (precision, rest)) (ds : List Char) :
    floatMarker? (cs ++ ds) = some (precision, rest ++ ds) := by
  obtain ⟨digits, rfl, hdigits, hprecision⟩ := floatMarker?_eq_some_iff.mp h
  refine floatMarker?_eq_some_iff.mpr ⟨digits, ?_, hdigits, hprecision⟩
  simp

/-- Where a fixed-point marker begins, no marker with a letter does. -/
theorem letterMarker?_of_floatMarker? (h : floatMarker? cs = some (precision, rest)) :
    letterMarker? cs = none := by
  obtain ⟨digits, rfl, hdigits, _⟩ := floatMarker?_eq_some_iff.mp h
  cases digits with
  | nil => rfl
  | cons d digits =>
    have hd : d.isDigit = true := hdigits d List.mem_cons_self
    have hletter : Placeholder.ofLetter? d = none := by
      unfold Placeholder.ofLetter?
      split
      case h_7 => rfl
      all_goals simp at hd
    simp [letterMarker?, hletter]

/-- The tokens of a template letter by letter. -/
def letters (cs : List Char) : List Token := (tokensOf cs).flatMap Token.letters

/-- The tokens of a text without letter markers, letter by letter. -/
def floatLetters (cs : List Char) : List Token := (floatTokens cs).flatMap Token.letters

/-- Plain text letter by letter. -/
theorem letters_ofText (cs : List Char) : (Token.ofText cs).flatMap Token.letters =
    cs.map fun c => .literal (String.singleton c) := by
  cases cs <;> simp [Token.ofText, Token.letters]

/-- Nothing has no letters. -/
@[simp] theorem floatLetters_nil : floatLetters [] = [] := by
  simp [floatLetters, floatTokens, floatMark, Token.ofText]

/-- The second pass takes a fixed-point marker where it begins. -/
theorem floatLetters_of_some (h : floatMarker? cs = some (precision, rest)) :
    floatLetters cs = .marker (.float precision) :: floatLetters rest := by
  have hcut := floatMark.cut_of_read h
  simp only [floatLetters, floatTokens, hcut]
  simp [Token.ofText, Token.letters]

/-- The second pass copies a character where no fixed-point marker begins. -/
theorem floatLetters_of_none (h : floatMarker? (c :: cs) = none) :
    floatLetters (c :: cs) = .literal (String.singleton c) :: floatLetters cs := by
  have hcut := floatMark.cut_of_none h
  simp only [floatLetters, floatTokens, hcut, List.flatMap_append, letters_ofText]
  simp

/-- The letters of a template are those that the second pass finds in what the first pass
has cut. -/
theorem letters_eq (cs : List Char) : letters cs =
    floatLetters (letterMark.cut cs).1 ++
      (letterMark.cut cs).2.flatMap fun (kind, text) => .marker kind :: floatLetters text := by
  simp only [letters, tokensOf, List.flatMap_append, List.flatMap_assoc, List.flatMap_cons]
  rfl

/-- An empty template has no letters. -/
@[simp] theorem letters_nil : letters [] = [] := by
  simp [letters_eq]

/-- A single scan takes a marker with a letter where it begins. -/
theorem letters_of_letterMarker? (h : letterMarker? cs = some (kind, rest)) :
    letters cs = .marker kind :: letters rest := by
  have hcut := letterMark.cut_of_read h
  rw [letters_eq, hcut, letters_eq rest]
  simp

/-- A single scan takes a fixed-point marker where it begins. -/
theorem letters_of_floatMarker? (h : floatMarker? cs = some (precision, rest)) :
    letters cs = .marker (.float precision) :: letters rest := by
  obtain ⟨digits, rfl, hdigits, hprecision⟩ := floatMarker?_eq_some_iff.mp h
  have hnone : ∀ c ∈ digits ++ ['f'], ∀ cs, letterMark.read? (c :: cs) = none :=
    fun c hc cs => letterMarker?_of_ne (ne_question_of_mem hdigits c hc) cs
  -- The first pass leaves the marker whole, in front of the text up to its next cut.
  have hcut : letterMark.cut ('?' :: (digits ++ 'f' :: rest)) =
      ('?' :: (digits ++ 'f' :: (letterMark.cut rest).1), (letterMark.cut rest).2) := by
    rw [letterMark.cut_of_none (letterMarker?_of_floatMarker? h)]
    have hpass := letterMark.cut_append_of_none hnone rest
    simp only [List.append_assoc, List.singleton_append] at hpass
    rw [hpass]
  have hfloat : floatMarker? ('?' :: (digits ++ 'f' :: (letterMark.cut rest).1)) =
      some (precision, (letterMark.cut rest).1) :=
    floatMarker?_eq_some_iff.mpr ⟨digits, rfl, hdigits, hprecision⟩
  rw [letters_eq, hcut, floatLetters_of_some hfloat, letters_eq rest, List.cons_append]

/-- A single scan copies a character where no marker begins. -/
theorem letters_of_none (hletter : letterMarker? (c :: cs) = none)
    (hfloat : floatMarker? (c :: cs) = none) :
    letters (c :: cs) = .literal (String.singleton c) :: letters cs := by
  have hcut := letterMark.cut_of_none hletter
  -- A marker in front of the first cut would be one in the whole template.
  have hfront : floatMarker? (c :: (letterMark.cut cs).1) = none := by
    cases hread : floatMarker? (c :: (letterMark.cut cs).1) with
    | none => rfl
    | some found =>
      obtain ⟨more, hmore⟩ := letterMark.cut_fst_prefix cs
      have hwhole := floatMarker?_append hread more
      rw [List.cons_append, hmore, hfloat] at hwhole
      cases hwhole
  rw [letters_eq, hcut, floatLetters_of_none hfront, letters_eq cs, List.cons_append]

/-- A marker could begin in the text and end after it: the text ends in a question mark
with nothing but digits behind it. -/
def IsOpen (cs : List Char) : Prop :=
  ∃ front digits, cs = front ++ '?' :: digits ∧ ∀ d ∈ digits, d.isDigit = true

/-- A text is open when a question mark stands before the digits at its end. -/
theorem isOpen_iff : IsOpen cs ↔ (cs.reverse.dropWhile Char.isDigit).head? = some '?' := by
  constructor
  · rintro ⟨front, digits, rfl, hdigits⟩
    have hreversed : ∀ d ∈ digits.reverse, d.isDigit = true := fun d hd =>
      hdigits d (List.mem_reverse.mp hd)
    rw [List.reverse_append, List.reverse_cons, List.append_assoc,
      List.dropWhile_append_of_pos hreversed]
    rfl
  · intro h
    obtain ⟨front, hfront⟩ := List.head?_eq_some_iff.mp h
    refine ⟨front.reverse, (cs.reverse.takeWhile Char.isDigit).reverse, ?_, fun d hd => ?_⟩
    · have hcs := congrArg List.reverse
        (List.takeWhile_append_dropWhile (p := Char.isDigit) (l := cs.reverse))
      rw [hfront] at hcs
      simpa using hcs.symm
    · exact List.all_eq_true.mp List.all_takeWhile d (List.mem_reverse.mp hd)

instance (cs : List Char) : Decidable (IsOpen cs) :=
  decidable_of_iff ((cs.reverse.dropWhile Char.isDigit).head? = some '?') isOpen_iff.symm

/-- What is open at its end is open with more text in front. -/
theorem IsOpen.append (h : IsOpen cs) (front : List Char) : IsOpen (front ++ cs) := by
  obtain ⟨before, digits, rfl, hdigits⟩ := h
  exact ⟨front ++ before, digits, by simp, hdigits⟩

/-- Behind a text that is not open no marker with a letter comes to be. -/
theorem letterMarker?_append_of_none (hopen : ¬IsOpen (c :: cs))
    (h : letterMarker? (c :: cs) = none) (ds : List Char) :
    letterMarker? (c :: cs ++ ds) = none := by
  cases hread : letterMarker? (c :: cs ++ ds) with
  | none => rfl
  | some found =>
    obtain ⟨letter, hform, hletter⟩ := letterMarker?_eq_some_iff.mp hread
    rw [List.cons_append, List.cons.injEq] at hform
    obtain ⟨rfl, hrest⟩ := hform
    cases cs with
    | nil => exact absurd ⟨[], [], rfl, by simp⟩ hopen
    | cons d cs =>
      rw [List.cons_append, List.cons.injEq] at hrest
      rw [letterMarker?_eq_some_iff.mpr ⟨d, rfl, hrest.1 ▸ hletter⟩] at h
      cases h

/-- Behind a text that is not open no fixed-point marker comes to be. -/
theorem floatMarker?_append_of_none (hopen : ¬IsOpen (c :: cs))
    (h : floatMarker? (c :: cs) = none) (ds : List Char) :
    floatMarker? (c :: cs ++ ds) = none := by
  cases hread : floatMarker? (c :: cs ++ ds) with
  | none => rfl
  | some found =>
    obtain ⟨digits, hform, hdigits, hprecision⟩ := floatMarker?_eq_some_iff.mp hread
    rw [List.cons_append, List.cons.injEq] at hform
    obtain ⟨rfl, hafter⟩ := hform
    -- Either the text ends among the digits, or the marker ends within the text.
    rcases List.append_eq_append_iff.mp hafter with ⟨more, rfl, _⟩ | ⟨more, rfl, hrest⟩
    · exact absurd ⟨[], cs, rfl, fun d hd => hdigits d (List.mem_append_left _ hd)⟩ hopen
    · cases more with
      | nil =>
        rw [List.append_nil] at hopen
        exact absurd ⟨[], digits, rfl, hdigits⟩ hopen
      | cons f more =>
        obtain ⟨rfl, _⟩ := List.cons.inj hrest
        rw [floatMarker?_eq_some_iff.mpr ⟨digits, rfl, hdigits, hprecision⟩] at h
        cases h

/-- Two templates one after the other are scanned one after the other, unless the first
is open at its end. -/
theorem letters_append (hopen : ¬IsOpen cs) (ds : List Char) :
    letters (cs ++ ds) = letters cs ++ letters ds := by
  induction hlength : cs.length using Nat.strongRecOn generalizing cs with
  | ind n ih =>
    have hlater (front : List Char) {rest : List Char} (hcs : cs = front ++ rest)
        (hshorter : rest.length < cs.length) :
        letters (rest ++ ds) = letters rest ++ letters ds :=
      ih _ (hlength ▸ hshorter) (fun h => hopen (hcs ▸ h.append front)) rfl
    cases cs with
    | nil => simp
    | cons c cs =>
      cases hletter : letterMarker? (c :: cs) with
      | some found =>
        obtain ⟨letter, hform, _⟩ := letterMarker?_eq_some_iff.mp hletter
        rw [letters_of_letterMarker? (letterMarker?_append hletter ds),
          letters_of_letterMarker? hletter, List.cons_append,
          hlater ['?', letter] hform (letterMarker?_length hletter)]
      | none =>
        cases hfloat : floatMarker? (c :: cs) with
        | some found =>
          obtain ⟨digits, hform, _⟩ := floatMarker?_eq_some_iff.mp hfloat
          rw [letters_of_floatMarker? (floatMarker?_append hfloat ds),
            letters_of_floatMarker? hfloat, List.cons_append,
            hlater ('?' :: (digits ++ ['f'])) (by simpa using hform)
              (floatMarker?_length hfloat)]
        | none =>
          have hletter' := letterMarker?_append_of_none hopen hletter ds
          have hfloat' := floatMarker?_append_of_none hopen hfloat ds
          rw [List.cons_append] at hletter' hfloat' ⊢
          rw [letters_of_none hletter' hfloat', letters_of_none hletter hfloat,
            List.cons_append, hlater [c] rfl (Nat.lt_succ_self _)]

end Template

end SqlText
