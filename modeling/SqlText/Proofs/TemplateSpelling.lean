import SqlText.Proofs.TemplateScan
import Mathlib.Data.List.Chain
import Mathlib.Data.List.Infix

/-!
# Tokens and the templates that spell them

A template spells its tokens: plain text stands for itself, and a marker for its kind. The
tokens that come from templates are the canonical ones, in which no text could be cut
further and no two texts could be one. A canonical list is found again in everything that
spells it, so tokens and templates determine each other up to the digits in which numbers
of decimals are written.
-/

namespace SqlText

namespace Text.Mark

variable {α : Type} {m : Mark α} {cs piece : List Char}

/-- A text can be taken apart mark by mark, and character by character where no mark
begins. -/
theorem scan_induction (m : Mark α) {motive : List Char → Prop} (nil : motive [])
    (mark : ∀ cs a rest, m.read? cs = some (a, rest) → motive rest → motive cs)
    (plain : ∀ c cs, m.read? (c :: cs) = none → motive cs → motive (c :: cs))
    (cs : List Char) : motive cs := by
  induction hlength : cs.length using Nat.strongRecOn generalizing cs with
  | ind n ih =>
    cases cs with
    | nil => exact nil
    | cons c cs =>
      cases h : m.read? (c :: cs) with
      | none => exact plain c cs h (ih _ (hlength ▸ Nat.lt_succ_self _) cs rfl)
      | some found =>
        obtain ⟨a, rest⟩ := found
        exact mark _ a rest h (ih _ (hlength ▸ m.shorter h) rest rfl)

/-- A mark is read alike whatever follows it, and the rest is the end of the text. -/
structure IsLocal (m : Mark α) : Prop where
  /-- What is left is the end of the text. -/
  suffix : ∀ {cs rest : List Char} {a : α}, m.read? cs = some (a, rest) → rest <:+ cs
  /-- More text is left over. -/
  extend : ∀ {cs rest : List Char} {a : α}, m.read? cs = some (a, rest) →
    ∀ ds, m.read? (cs ++ ds) = some (a, rest ++ ds)

/-- The pieces of text between the marks. -/
def pieces (m : Mark α) (cs : List Char) : List (List Char) :=
  (m.cut cs).1 :: (m.cut cs).2.map Prod.snd

/-- Every piece of text stands somewhere in the whole. -/
theorem IsLocal.infix_of_mem_pieces (hm : m.IsLocal) (h : piece ∈ m.pieces cs) :
    piece <:+: cs := by
  induction cs using scan_induction m generalizing piece with
  | nil => simpa [pieces] using h
  | mark cs a rest hread ih =>
    rw [pieces, cut_of_read m hread] at h
    rcases List.mem_cons.mp h with rfl | h
    · exact List.nil_infix
    · exact (ih h).trans (hm.suffix hread).isInfix
  | plain c cs hread ih =>
    rw [pieces, cut_of_none m hread] at h
    rcases List.mem_cons.mp h with rfl | h
    · exact ((List.prefix_cons_inj c).mpr (m.cut_fst_prefix cs)).isInfix
    · exact List.infix_cons (ih (List.mem_cons_of_mem _ h))

/-- No mark begins in a piece of text and ends in it. -/
theorem IsLocal.read?_of_infix_piece (hm : m.IsLocal) (h : piece ∈ m.pieces cs)
    {w : List Char} (hw : w <:+: piece) : m.read? w = none := by
  have hnil : m.read? [] = none := by
    cases hread : m.read? [] with
    | none => rfl
    | some found => exact absurd (m.shorter hread) (Nat.not_lt_zero _)
  induction cs using scan_induction m generalizing piece with
  | nil =>
    obtain rfl : piece = [] := by simpa [pieces] using h
    rwa [List.infix_nil.mp hw]
  | mark cs a rest hread ih =>
    rw [pieces, cut_of_read m hread] at h
    rcases List.mem_cons.mp h with rfl | h
    · rwa [List.infix_nil.mp hw]
    · exact ih h hw
  | plain c cs hread ih =>
    rw [pieces, cut_of_none m hread] at h
    rcases List.mem_cons.mp h with rfl | h
    · rcases List.infix_cons_iff.mp hw with hfront | hlater
      · -- A mark at the front of the piece would have been read at the front of the text.
        obtain ⟨more, hmore⟩ := hfront.trans ((List.prefix_cons_inj c).mpr (m.cut_fst_prefix cs))
        cases hfound : m.read? w with
        | none => rfl
        | some found =>
          rw [← hmore, hm.extend hfound more] at hread
          cases hread
      · exact ih List.mem_cons_self hlater
    · exact ih (List.mem_cons_of_mem _ h) hw

end Text.Mark

/-- A text that is recognized as a marker: a question mark with one of six letters, or with
the digits of a number of 32 bits, which may be none, and an `f`. -/
inductive IsMarker : List Char → Prop where
  /-- A marker with a letter. -/
  | letter {c : Char} : c ∈ ['n', 's', 'i', 'u', 'a', 'p'] → IsMarker ['?', c]
  /-- A fixed-point marker. -/
  | decimals {digits : List Char} : (∀ d ∈ digits, d.isDigit = true) →
      Nat.ofDigitChars 10 digits 0 < Nat.pow 2 32 → IsMarker ('?' :: (digits ++ ['f']))

/-- A text without a marker in it. -/
def Unmarked (cs : List Char) : Prop := ∀ m, IsMarker m → ¬m <:+: cs

namespace Token

/-- The text of a token: plain text as it is, a marker in its shortest spelling. -/
def text : Token → String
  | .literal text => text
  | .marker kind => kind.marker

/-- The texts that stand for a token. Only a number of decimals can be written in more than
one way, with zeros in front. -/
inductive Spells : Token → List Char → Prop where
  /-- A token's own text. -/
  | text (t : Token) : Spells t t.text.toList
  /-- A number of decimals in any digits. -/
  | decimals {digits : List Char} {precision : UInt32} : (∀ d ∈ digits, d.isDigit = true) →
      Nat.ofDigitChars 10 digits 0 = precision.toNat →
      Spells (.marker (.float precision)) ('?' :: (digits ++ ['f']))

end Token

namespace Template

variable {cs ds rest m : List Char} {kind : Placeholder} {precision : UInt32} {c : Char}
  {ts us : List Token}

/-- The text that tokens spell one after another, each in its own way. -/
inductive Spelled : List Token → List Char → Prop where
  /-- Nothing spells no tokens. -/
  | nil : Spelled [] []
  /-- A token comes before the others. -/
  | cons {t : Token} {ts : List Token} {m cs : List Char} :
      t.Spells m → Spelled ts cs → Spelled (t :: ts) (m ++ cs)

/-- Tokens as a template, every marker in its shortest spelling. -/
def written (ts : List Token) : String := String.join (ts.map Token.text)

/-- Tokens that could not be cut otherwise. -/
structure Canonical (ts : List Token) : Prop where
  /-- No plain text is empty. -/
  nonempty : ∀ text, .literal text ∈ ts → text ≠ ""
  /-- No plain text stands next to another. -/
  apart : ts.IsChain fun t u => t.isMarker = true ∨ u.isMarker = true
  /-- No plain text contains a marker. -/
  plain : ∀ text, .literal text ∈ ts → Unmarked text.toList

/-- Both kinds of markers are read alike whatever follows. -/
theorem letterMark_isLocal : letterMark.IsLocal where
  suffix h := by
    obtain ⟨letter, rfl, _⟩ := letterMarker?_eq_some_iff.mp h
    exact ⟨['?', letter], rfl⟩
  extend := letterMarker?_append

@[inherit_doc letterMark_isLocal]
theorem floatMark_isLocal : floatMark.IsLocal where
  suffix h := by
    obtain ⟨digits, rfl, _⟩ := floatMarker?_eq_some_iff.mp h
    exact ⟨'?' :: (digits ++ ['f']), by simp⟩
  extend := floatMarker?_append

/-- The letters of markers are the six letters. -/
theorem mem_letters_iff : c ∈ ['n', 's', 'i', 'u', 'a', 'p'] ↔
    ∃ kind, Placeholder.ofLetter? c = some kind := by
  constructor
  · intro h
    simp only [List.mem_cons, List.not_mem_nil, or_false] at h
    rcases h with rfl | rfl | rfl | rfl | rfl | rfl <;> exact ⟨_, rfl⟩
  · rintro ⟨kind, h⟩
    unfold Placeholder.ofLetter? at h
    split at h
    case h_7 => cases h
    all_goals simp

/-- A marker with a letter is spelled by its letter. -/
theorem marker_of_ofLetter? (h : Placeholder.ofLetter? c = some kind) :
    kind.marker.toList = ['?', c] := by
  unfold Placeholder.ofLetter? at h
  split at h
  case h_7 => cases h
  all_goals
    obtain rfl := Option.some.inj h
    rfl

/-- The digits of a number of 32 bits are a number of decimals. -/
theorem precision?_eq_some_iff {digits : List Char} :
    precision? digits = some precision ↔ Nat.ofDigitChars 10 digits 0 = precision.toNat := by
  unfold precision?
  dsimp only
  constructor
  · intro h
    split at h
    · rename_i hlt
      obtain rfl := Option.some.inj h
      exact (Nat.mod_eq_of_lt hlt).symm
    · cases h
  · intro h
    rw [h, if_pos precision.toNat_lt]
    simp

/-- What is recognized as a marker is read as one. -/
theorem read?_of_isMarker (h : IsMarker m) :
    letterMarker? m ≠ none ∨ floatMarker? m ≠ none := by
  cases h with
  | letter hc =>
    obtain ⟨kind, hkind⟩ := mem_letters_iff.mp hc
    left
    rw [letterMarker?_eq_some_iff.mpr ⟨_, rfl, hkind⟩]
    exact Option.some_ne_none _
  | @decimals digits hdigits hlt =>
    right
    have hprecision : precision? digits =
        some (Nat.ofDigitChars 10 digits 0).toUInt32 :=
      precision?_eq_some_iff.mpr (Nat.mod_eq_of_lt hlt).symm
    rw [floatMarker?_eq_some_iff.mpr ⟨digits, rfl, hdigits, hprecision⟩]
    exact Option.some_ne_none _

/-- A text is without markers when none begins anywhere in it. -/
theorem unmarked_iff : Unmarked cs ↔
    ∀ rest ∈ cs.tails, letterMarker? rest = none ∧ floatMarker? rest = none := by
  simp only [List.mem_tails]
  constructor
  · intro h rest hrest
    constructor
    · cases hread : letterMarker? rest with
      | none => rfl
      | some found =>
        obtain ⟨letter, rfl, hletter⟩ := letterMarker?_eq_some_iff.mp hread
        have hmarker : IsMarker ['?', letter] := .letter (mem_letters_iff.mpr ⟨_, hletter⟩)
        exact absurd (List.IsInfix.trans ⟨[], _, rfl⟩ hrest.isInfix) (h _ hmarker)
    · cases hread : floatMarker? rest with
      | none => rfl
      | some found =>
        obtain ⟨digits, rfl, hdigits, hprecision⟩ := floatMarker?_eq_some_iff.mp hread
        have hmarker : IsMarker ('?' :: (digits ++ ['f'])) :=
          .decimals hdigits (precision?_eq_some_iff.mp hprecision ▸ UInt32.toNat_lt _)
        exact absurd (List.IsInfix.trans ⟨[], found.2, by simp⟩ hrest.isInfix) (h _ hmarker)
  · intro h m hm hin
    obtain ⟨front, back, hcs⟩ := hin
    obtain ⟨hletter, hfloat⟩ := h (m ++ back) ⟨front, by rw [← hcs, List.append_assoc]⟩
    rcases read?_of_isMarker hm with hread | hread
    · obtain ⟨found, hfound⟩ := Option.ne_none_iff_exists'.mp hread
      rw [letterMarker?_append hfound back] at hletter
      cases hletter
    · obtain ⟨found, hfound⟩ := Option.ne_none_iff_exists'.mp hread
      rw [floatMarker?_append hfound back] at hfloat
      cases hfloat

instance (cs : List Char) : Decidable (Unmarked cs) :=
  decidable_of_iff _ unmarked_iff.symm

/-- In text without a marker, up to the next question mark, no marker with a letter
begins. -/
theorem letterMarker?_of_unmarked (h : Unmarked (c :: cs)) (hds : ∀ d ∈ ds.head?, d = '?') :
    letterMarker? (c :: (cs ++ ds)) = none := by
  cases hread : letterMarker? (c :: (cs ++ ds)) with
  | none => rfl
  | some found =>
    obtain ⟨letter, hform, hletter⟩ := letterMarker?_eq_some_iff.mp hread
    obtain ⟨rfl, hrest⟩ := List.cons.inj hform
    cases cs with
    | nil =>
      rw [List.nil_append] at hrest
      obtain rfl : letter = '?' := hds letter (by simp [hrest])
      cases hletter
    | cons d cs =>
      obtain ⟨rfl, _⟩ := List.cons.inj hrest
      have hmarker : IsMarker ['?', d] := .letter (mem_letters_iff.mpr ⟨_, hletter⟩)
      exact absurd ⟨[], cs, rfl⟩ (h _ hmarker)

/-- In text without a marker, up to the next question mark, no fixed-point marker
begins. -/
theorem floatMarker?_of_unmarked (h : Unmarked (c :: cs)) (hds : ∀ d ∈ ds.head?, d = '?') :
    floatMarker? (c :: (cs ++ ds)) = none := by
  cases hread : floatMarker? (c :: (cs ++ ds)) with
  | none => rfl
  | some found =>
    obtain ⟨precision, rest⟩ := found
    obtain ⟨digits, hform, hdigits, hprecision⟩ := floatMarker?_eq_some_iff.mp hread
    obtain ⟨rfl, hafter⟩ := List.cons.inj hform
    have hmarker : IsMarker ('?' :: (digits ++ ['f'])) :=
      .decimals hdigits (precision?_eq_some_iff.mp hprecision ▸ precision.toNat_lt)
    -- The marker ends within the text: neither a digit nor the `f` is a question mark.
    rcases List.append_eq_append_iff.mp hafter with ⟨more, rfl, hmore⟩ | ⟨more, rfl, hmore⟩
    · cases more with
      | nil => exact absurd (hds 'f' (by simp [hmore])) (by decide)
      | cons d more =>
        obtain rfl : d = '?' := hds d (by simp [hmore])
        exact absurd (hdigits '?' (by simp)) (by decide)
    · cases more with
      | nil =>
        obtain rfl : 'f' :: rest = ds := hmore
        exact absurd (hds 'f' rfl) (by decide)
      | cons f more =>
        obtain ⟨rfl, _⟩ := List.cons.inj hmore
        exact absurd ⟨[], more, by simp⟩ (h _ hmarker)

/-- Text without a marker is copied, up to the next question mark. -/
theorem letters_unmarked (h : Unmarked cs) (hds : ∀ d ∈ ds.head?, d = '?') :
    letters (cs ++ ds) = cs.map (fun c => .literal (String.singleton c)) ++ letters ds := by
  induction cs with
  | nil => rfl
  | cons c cs ih =>
    have hcs : Unmarked cs := fun m hm hin => h m hm (List.infix_cons hin)
    rw [List.cons_append, letters_of_none (letterMarker?_of_unmarked h hds)
      (floatMarker?_of_unmarked h hds), ih hcs, List.map_cons, List.cons_append]

/-- The shortest spelling of a fixed-point marker has digits of its number of decimals. -/
theorem exists_digits_marker (precision : UInt32) :
    ∃ digits, (∀ d ∈ digits, d.isDigit = true) ∧
      Nat.ofDigitChars 10 digits 0 = precision.toNat ∧
      (Placeholder.float precision).marker.toList = '?' :: (digits ++ ['f']) := by
  by_cases hzero : precision = 0
  · subst hzero
    exact ⟨[], by simp, rfl, rfl⟩
  · refine ⟨Nat.toDigits 10 precision.toNat, fun d hd => ?_, Nat.ofDigitChars_ten_toDigits, ?_⟩
    · exact Nat.isDigit_of_mem_toDigits (by decide) (by decide) hd
    · simp only [Placeholder.marker, if_neg hzero, String.toList_append]
      have h : (toString precision.toNat).toList = Nat.toDigits 10 precision.toNat :=
        Nat.toList_repr
      rw [h]
      rfl

/-- What spells a marker begins with a question mark and is read as that marker. -/
theorem letters_of_spells (h : (Token.marker kind).Spells m) (ds : List Char) :
    m.head? = some '?' ∧ letters (m ++ ds) = .marker kind :: letters ds := by
  have hdecimals {digits : List Char} {precision : UInt32}
      (hdigits : ∀ d ∈ digits, d.isDigit = true)
      (hvalue : Nat.ofDigitChars 10 digits 0 = precision.toNat) :
      letters ('?' :: (digits ++ ['f']) ++ ds) = .marker (.float precision) :: letters ds := by
    refine letters_of_floatMarker? (floatMarker?_eq_some_iff.mpr ⟨digits, by simp, hdigits, ?_⟩)
    exact precision?_eq_some_iff.mpr hvalue
  cases h with
  | text =>
    have hletter (letter : Char) (hkind : Placeholder.ofLetter? letter = some kind) :
        letters ('?' :: letter :: ds) = .marker kind :: letters ds :=
      letters_of_letterMarker? (letterMarker?_eq_some_iff.mpr ⟨letter, rfl, hkind⟩)
    cases kind with
    | name => exact ⟨rfl, hletter 'n' rfl⟩
    | string => exact ⟨rfl, hletter 's' rfl⟩
    | integer => exact ⟨rfl, hletter 'i' rfl⟩
    | set => exact ⟨rfl, hletter 'a' rfl⟩
    | fields => exact ⟨rfl, hletter 'u' rfl⟩
    | raw => exact ⟨rfl, hletter 'p' rfl⟩
    | float precision =>
      obtain ⟨digits, hdigits, hvalue, hform⟩ := exists_digits_marker precision
      rw [Token.text, hform]
      exact ⟨rfl, hdecimals hdigits hvalue⟩
  | decimals hdigits hvalue => exact ⟨rfl, hdecimals hdigits hvalue⟩

/-- The spelling of tokens that begin with a marker begins with a question mark. -/
theorem Spelled.head? (h : Spelled ts cs) (hts : ∀ t ∈ ts.head?, t.isMarker = true) :
    ∀ d ∈ cs.head?, d = '?' := by
  cases h with
  | nil => simp
  | @cons t ts m cs hspells _ =>
    intro d hd
    cases t with
    | literal text => exact absurd (hts (.literal text) rfl) (by simp [Token.isMarker])
    | marker kind =>
      have hm := (letters_of_spells hspells []).1
      rw [List.head?_append, hm] at hd
      simpa using hd.symm

/-- The tokens after the first of canonical ones are canonical. -/
theorem Canonical.tail {t : Token} (h : Canonical (t :: ts)) : Canonical ts where
  nonempty text htext := h.nonempty text (List.mem_cons_of_mem _ htext)
  apart := (List.isChain_cons.mp h.apart).2
  plain text htext := h.plain text (List.mem_cons_of_mem _ htext)

/-- After plain text comes a marker, or nothing. -/
theorem Canonical.isMarker_head? {text : String} (h : Canonical (.literal text :: ts)) :
    ∀ t ∈ ts.head?, t.isMarker = true := by
  intro t ht
  simpa [Token.isMarker] using (List.isChain_cons.mp h.apart).1 t ht

/-- Whatever spells canonical tokens is read as them, letter by letter. -/
theorem Spelled.letters (h : Spelled ts cs) (hts : Canonical ts) :
    letters cs = ts.flatMap Token.letters := by
  induction h with
  | nil => simp
  | @cons t ts m cs hspells hrest ih =>
    rw [List.flatMap_cons]
    cases t with
    | marker kind => rw [(letters_of_spells hspells cs).2, ih hts.tail]; rfl
    | literal text =>
      cases hspells with
      | text =>
        have hplain : Unmarked text.toList := hts.plain text List.mem_cons_self
        have hhead := hrest.head? hts.isMarker_head?
        exact (letters_unmarked hplain hhead).trans (congrArg _ (ih hts.tail))

/-- Plain texts next to each other taken together. -/
def gather : List Token → List Token
  | [] => []
  | .marker kind :: ts => .marker kind :: gather ts
  | .literal text :: ts =>
    match gather ts with
    | .literal more :: us => .literal (text ++ more) :: us
    | us => .literal text :: us

/-- Letters in front of a marker, or of nothing, are gathered to one text. -/
theorem gather_letters_append (hcs : cs ≠ []) (hts : ∀ t ∈ (gather ts).head?, t.isMarker = true) :
    gather (cs.map (fun c => .literal (String.singleton c)) ++ ts) =
      .literal (String.ofList cs) :: gather ts := by
  induction cs with
  | nil => exact absurd rfl hcs
  | cons c cs ih =>
    cases cs with
    | nil =>
      simp only [List.map_cons, List.map_nil, List.singleton_append, gather]
      split
      · rename_i more us hgather
        simpa [Token.isMarker] using hts (.literal more) (by simp [hgather])
      · rw [String.singleton_eq_ofList]
    | cons d cs =>
      rw [List.map_cons, List.cons_append, gather, ih (List.cons_ne_nil _ _)]
      simp only [String.singleton_eq_ofList, ← String.ofList_append, List.singleton_append]

/-- Canonical tokens are gathered from their letters. -/
theorem gather_letters (h : Canonical ts) : gather (ts.flatMap Token.letters) = ts := by
  induction ts with
  | nil => rfl
  | cons t ts ih =>
    rw [List.flatMap_cons]
    cases t with
    | marker kind => exact congrArg (Token.marker kind :: ·) (ih h.tail)
    | literal text =>
      have hne : text.toList ≠ [] := by
        simpa using h.nonempty text List.mem_cons_self
      have hhead : ∀ t ∈ (gather (ts.flatMap Token.letters)).head?, t.isMarker = true := by
        rw [ih h.tail]
        exact h.isMarker_head?
      have hgather := gather_letters_append hne hhead
      rw [ih h.tail, String.ofList_toList] at hgather
      exact hgather

/-- Plain text without a marker is canonical. -/
theorem canonical_ofText (h : Unmarked cs) : Canonical (Token.ofText cs) := by
  unfold Token.ofText
  split
  · exact ⟨by simp, List.isChain_nil, by simp⟩
  · rename_i hcs
    refine ⟨fun text htext => ?_, List.isChain_singleton _, fun text htext => ?_⟩
    · obtain rfl : text = String.ofList cs := by simpa using htext
      simpa using hcs
    · obtain rfl : text = String.ofList cs := by simpa using htext
      rwa [String.toList_ofList]

/-- A marker keeps canonical tokens apart. -/
theorem Canonical.append_marker (hts : Canonical ts) (hus : Canonical us) :
    Canonical (ts ++ .marker kind :: us) where
  nonempty text htext := by
    rcases List.mem_append.mp htext with h | h
    · exact hts.nonempty text h
    · exact hus.nonempty text (by simpa using h)
  apart := by
    refine hts.apart.append (hus.apart.cons fun u _ => .inl rfl) fun t _ u hu => ?_
    obtain rfl : Token.marker kind = u := by simpa using hu
    exact .inr rfl
  plain text htext := by
    rcases List.mem_append.mp htext with h | h
    · exact hts.plain text h
    · exact hus.plain text (by simpa using h)

/-- Canonical pieces with a marker between any two are canonical. -/
theorem canonical_cut {α : Type} (mark : α → Placeholder) (f : List Char → List Token)
    (first : List Char) (later : List (α × List Char))
    (h : ∀ piece ∈ first :: later.map Prod.snd, Canonical (f piece)) :
    Canonical (f first ++ later.flatMap fun (a, piece) => .marker (mark a) :: f piece) := by
  induction later generalizing first with
  | nil =>
    rw [List.flatMap_nil, List.append_nil]
    exact h first List.mem_cons_self
  | cons entry later ih =>
    obtain ⟨hfirst, hlater⟩ := List.forall_mem_cons.mp h
    exact hfirst.append_marker (ih entry.2 hlater)

/-- The tokens of a template are canonical. -/
theorem canonical_tokensOf (cs : List Char) : Canonical (tokensOf cs) := by
  refine canonical_cut id floatTokens _ (letterMark.cut cs).2 fun piece hpiece => ?_
  refine canonical_cut .float Token.ofText _ (floatMark.cut piece).2 fun part hpart => ?_
  -- What the second pass leaves of a piece is without either kind of marker.
  refine canonical_ofText fun m hm hin => ?_
  have hletter := letterMark_isLocal.read?_of_infix_piece hpiece
    (hin.trans (floatMark_isLocal.infix_of_mem_pieces hpart))
  have hfloat := floatMark_isLocal.read?_of_infix_piece hpart hin
  exact (read?_of_isMarker hm).elim (absurd hletter) (absurd hfloat)

/-- The text of a letter of plain text. -/
theorem text_singleton (c : Char) : (Token.literal (String.singleton c)).text.toList = [c] := by
  rw [Token.text, String.singleton_eq_ofList, String.toList_ofList]

/-- A template spells its tokens, letter by letter. -/
theorem spelled_letters (cs : List Char) : Spelled (letters cs) cs := by
  induction hlength : cs.length using Nat.strongRecOn generalizing cs with
  | ind n ih =>
    cases cs with
    | nil => rw [letters_nil]; exact .nil
    | cons c cs =>
      cases hletter : letterMarker? (c :: cs) with
      | some found =>
        obtain ⟨kind, rest⟩ := found
        obtain ⟨letter, hform, hkind⟩ := letterMarker?_eq_some_iff.mp hletter
        have hspells : (Token.marker kind).Spells ['?', letter] :=
          marker_of_ofLetter? hkind ▸ .text (.marker kind)
        rw [letters_of_letterMarker? hletter, hform]
        exact .cons hspells (ih _ (hlength ▸ letterMarker?_length hletter) rest rfl)
      | none =>
        cases hfloat : floatMarker? (c :: cs) with
        | some found =>
          obtain ⟨precision, rest⟩ := found
          obtain ⟨digits, hform, hdigits, hprecision⟩ := floatMarker?_eq_some_iff.mp hfloat
          rw [letters_of_floatMarker? hfloat, hform]
          have hspells := Token.Spells.decimals hdigits (precision?_eq_some_iff.mp hprecision)
          have hrest := ih _ (hlength ▸ floatMarker?_length hfloat) rest rfl
          simpa using Spelled.cons hspells hrest
        | none =>
          rw [letters_of_none hletter hfloat]
          have hrest := ih _ (hlength ▸ Nat.lt_succ_self _) cs rfl
          have hspells := Token.Spells.text (.literal (String.singleton c))
          rw [text_singleton] at hspells
          exact .cons hspells hrest

/-- What spells the letters of a text before other tokens spells the text before them. -/
theorem Spelled.of_text (h : Spelled (cs.map (fun c => .literal (String.singleton c)) ++ ts) m) :
    ∃ rest, m = cs ++ rest ∧ Spelled ts rest := by
  induction cs generalizing m with
  | nil => exact ⟨m, rfl, h⟩
  | cons c cs ih =>
    cases h with
    | cons hspells hlater =>
      obtain ⟨rest, rfl, hrest⟩ := ih hlater
      cases hspells with
      | text => exact ⟨rest, by rw [text_singleton]; rfl, hrest⟩

/-- What spells tokens letter by letter spells the tokens. -/
theorem Spelled.of_letters (h : Spelled (ts.flatMap Token.letters) cs) : Spelled ts cs := by
  induction ts generalizing cs with
  | nil => exact h
  | cons t ts ih =>
    rw [List.flatMap_cons] at h
    cases t with
    | literal text =>
      obtain ⟨rest, rfl, hrest⟩ := Spelled.of_text h
      exact .cons (.text (.literal text)) (ih hrest)
    | marker kind =>
      cases h with
      | cons hspells hrest => exact .cons hspells (ih hrest)

/-- The tokens of a text are the one canonical list that it spells. -/
theorem tokensOf_eq_iff : tokensOf cs = ts ↔ Canonical ts ∧ Spelled ts cs := by
  constructor
  · rintro rfl
    exact ⟨canonical_tokensOf cs, (spelled_letters cs).of_letters⟩
  · rintro ⟨hts, hspelled⟩
    have hletters : (tokensOf cs).flatMap Token.letters = ts.flatMap Token.letters :=
      hspelled.letters hts
    rw [← gather_letters (canonical_tokensOf cs), hletters, gather_letters hts]

/-- Tokens are spelled by their own texts. -/
theorem spelled_written (ts : List Token) : Spelled ts (written ts).toList := by
  induction ts with
  | nil => exact .nil
  | cons t ts ih =>
    rw [written, List.map_cons, String.join_cons, String.toList_append]
    exact .cons (.text t) ih

/-- Cutting into tokens and writing tokens undo each other. The tokens of a template are
canonical and are spelled by the template itself; written out, they differ from it at most in
the digits of the numbers of decimals, and have the same tokens again. Every canonical list is
what its own text is cut into. -/
theorem tokens_inverse_written :
    (∀ template : String, Canonical (tokens template) ∧
      Spelled (tokens template) template.toList ∧
      Spelled (tokens template) (written (tokens template)).toList ∧
      tokens (written (tokens template)) = tokens template) ∧
    ∀ ts : List Token, Canonical ts → tokens (written ts) = ts := by
  have hwritten (ts : List Token) (hts : Canonical ts) : tokens (written ts) = ts :=
    tokensOf_eq_iff.mpr ⟨hts, spelled_written ts⟩
  refine ⟨fun template => ?_, hwritten⟩
  obtain ⟨hcanonical, hspelled⟩ := tokensOf_eq_iff.mp (Eq.refl (tokens template))
  exact ⟨hcanonical, hspelled, spelled_written _, hwritten _ hcanonical⟩

/-- Plain texts that end like the beginning of a marker, begin like its end, or have too many
decimals for one. -/
theorem tokens_inverse_written_stray_markers :
    let ts : List Token := [.literal "?12", .marker (.float 7), .literal "f ?99999999999f",
      .marker .name, .literal "f"]
    Canonical ts ∧ tokens "?12?7ff ?99999999999f?nf" = ts := by
  intro ts
  have hplain : ∀ text ∈ ["?12", "f ?99999999999f", "f"], Unmarked text.toList := by decide +kernel
  have hts : Canonical ts :=
    ⟨by simp [ts], by decide, fun text htext => hplain text (by simpa [ts] using htext)⟩
  exact ⟨hts, tokens_inverse_written.2 ts hts⟩

end Template

end SqlText
