import SqlText.Literal
import SqlText.Proofs.Carrying
import Mathlib.Data.List.TakeWhile

/-!
# Names without a rest

A name whose text has no blank inside is an identifier and nothing more: its parts
are what stands between the dots, and no rest is copied after them.
-/

namespace SqlText

namespace Text

/-- Nothing is left between the blanks exactly when there is nothing but blanks. -/
theorem trimmed_eq_nil {cs : List Char} : trimmed cs = [] ↔ ∀ c ∈ cs, isBlank c = true := by
  unfold trimmed
  rw [List.reverse_eq_nil_iff, List.dropWhile_eq_nil_iff, ← List.dropWhile_eq_nil_iff (l := cs)]
  simp only [List.mem_reverse]
  constructor
  · intro h
    -- The first character that is left would not be a blank.
    cases hdrop : cs.dropWhile isBlank with
    | nil => rfl
    | cons c rest =>
      have hhead := List.head?_dropWhile_not isBlank cs
      rw [hdrop] at h hhead
      have hblank := h c List.mem_cons_self
      simp [hblank] at hhead
  · intro h
    simp [h]

/-- A text is blank exactly when nothing is left between the blanks. -/
theorem isBlankText_eq_true {s : String} : isBlankText s = true ↔ trimmed s.toList = [] := by
  rw [trimmed_eq_nil, isBlankText, List.all_eq_true]

end Text

namespace Name

/-- There is no blank inside the text. -/
def IsWord (s : String) : Prop := ∀ c ∈ Text.trimmed s.toList, Text.isBlank c = false

instance (s : String) : Decidable (IsWord s) :=
  List.decidableBAll (fun c => Text.isBlank c = false) (Text.trimmed s.toList)

/-- The text is one word: not blank, and without a blank inside. -/
structure IsPlain (s : String) : Prop where
  /-- There is something between the blanks around the text. -/
  notBlank : Text.isBlankText s = false
  /-- There is no blank in it. -/
  isWord : IsWord s

instance (s : String) : Decidable (IsPlain s) :=
  decidable_of_iff (Text.isBlankText s = false ∧ IsWord s)
    ⟨fun h => ⟨h.1, h.2⟩, fun h => ⟨h.notBlank, h.isWord⟩⟩

/-- What stands between the dots of a text, blanks around it left out. -/
def dotted (s : String) : List String :=
  ((Text.trimmed s.toList).splitOn '.').map String.ofList

/-- Only a text of blanks is not a name. -/
theorem parse?_eq_none_iff {s : String} :
    parse? s = none ↔ ∀ c ∈ s.toList, Text.isBlank c = true := by
  rw [← Text.trimmed_eq_nil, parse?]
  cases Text.trimmed s.toList <;> simp

/-- Blank texts, and no others, are not names. -/
theorem isNone_parse? (s : String) : (parse? s).isNone = Text.isBlankText s := by
  rw [Bool.eq_iff_iff, Option.isNone_iff_eq_none, parse?_eq_none_iff]
  exact List.all_eq_true.symm

/-- A blank text is not a name. -/
theorem parse?_of_blank {s : String} (h : Text.isBlankText s = true) : parse? s = none := by
  simp [parse?, Text.isBlankText_eq_true.mp h]

/-- A text that is not blank and has no blank inside is a name without a rest. -/
theorem IsPlain.parse? {s : String} (h : IsPlain s) : parse? s = some ⟨dotted s, ""⟩ := by
  have hcs : Text.trimmed s.toList ≠ [] := by
    intro hnil
    have hblank := h.notBlank
    rw [Text.isBlankText_eq_true.mpr hnil] at hblank
    cases hblank
  have hword : (Text.trimmed s.toList).takeWhile (!Text.isBlank ·) = Text.trimmed s.toList :=
    List.takeWhile_eq_self_iff.mpr fun c hc => by simp [h.isWord c hc]
  have hrest : (Text.trimmed s.toList).dropWhile (!Text.isBlank ·) = [] :=
    List.dropWhile_eq_nil_iff.mpr fun c hc => by simp [h.isWord c hc]
  simp [Name.parse?, hcs, hword, hrest, dotted]

/-- There is always a part. -/
theorem dotted_ne_nil (s : String) : dotted s ≠ [] := by
  simp [dotted, List.splitOn_ne_nil]

end Name

/-- A name has text unless it is blank. -/
theorem Literal.hasText_name (s : String) : (Literal.name s).hasText = !Text.isBlankText s := by
  rw [← Name.isNone_parse?, Literal.name]
  cases Name.parse? s with
  | none => rfl
  | some n => simp [Name.draft, Draft.hasText, Piece.isText]

end SqlText
