import SqlText.Proofs.Carrying

/-!
# Readers of finished text

A reader takes what it recognizes from the front of a text and gives the rest back. It
knows nothing of drafts. What it takes is separated from what follows by a blank or a
comma, so a reader is specified by the text it takes, whatever follows after such an end.
-/

namespace SqlText.Grammar

/-- Takes something from the front of a text; gives its meaning and the rest. -/
abbrev Reader (α : Type) := List Char → Option (α × List Char)

/-- The rest after a fixed word. -/
def skip? : List Char → List Char → Option (List Char)
  | [], cs => some cs
  | c :: word, d :: cs => if c = d then skip? word cs else none
  | _ :: _, [] => none

/-- The first of several words that a text begins with. -/
def oneOf? {β : Type} : List (String × β) → Reader β
  | [], _ => none
  | (word, b) :: more, cs =>
    match skip? word.toList cs with
    | some rest => some (b, rest)
    | none => oneOf? more cs

/-- Items with one of several words between any two. Every item comes with the meaning
of the word before it; the first has none. -/
def series? {α β : Type} (item : Reader α) (words : List (String × β)) (label : Option β)
    (cs : List Char) : Option (List (Option β × α) × List Char) :=
  match item cs with
  | none => none
  | some (a, rest) =>
    match oneOf? words rest with
    | none => some ([(label, a)], rest)
    | some (b, next) =>
      if next.length < cs.length then
        (series? item words (some b) next).map fun (items, rest) => ((label, a) :: items, rest)
      else none
termination_by cs.length

/-- Items with a fixed word between any two. -/
def list? {α : Type} (item : Reader α) (word : String) : Reader (List α) := fun cs =>
  (series? item [(word, ())] none cs).map fun (items, rest) => (items.map Prod.snd, rest)

/-- What was read, if nothing is left. -/
def whole? {α : Type} (read : Option (α × List Char)) : Option α :=
  match read with
  | some (a, []) => some a
  | _ => none

/-- The text is over, or goes on with a blank or a comma. -/
def Ends (rest : List Char) : Prop := ∀ c ∈ rest.head?, c = ' ' ∨ c = ','

/-- The reader takes exactly this text, whatever follows after its end. -/
def Reads {α : Type} (read : Reader α) (text : String) (a : α) : Prop :=
  ∀ rest, Ends rest → read (text.toList ++ rest) = some (a, rest)

/-- Nothing is an end. -/
theorem ends_nil : Ends [] := by simp [Ends]

/-- A blank is an end. -/
theorem ends_blank (rest : List Char) : Ends (' ' :: rest) := by simp [Ends]

/-- What begins with a blank or not at all is an end. -/
theorem Ends.of_blank {rest : List Char} (h : ∀ c ∈ rest.head?, c = ' ') : Ends rest :=
  fun c hc => .inl (h c hc)

/-- A word that begins with a blank or a comma is an end, whatever follows it. -/
theorem ends_append (word : String)
    (h : word.toList.head? = some ' ' ∨ word.toList.head? = some ',') (rest : List Char) :
    Ends (word.toList ++ rest) := by
  intro c hc
  cases hword : word.toList with
  | nil => simp [hword] at h
  | cons d tail =>
    rw [hword] at h hc
    simp only [List.head?_cons, Option.some.injEq] at h
    simp only [List.cons_append, List.head?_cons, Option.mem_def, Option.some.injEq] at hc
    rwa [← hc]

/-- A word is skipped where it stands. -/
@[simp] theorem skip?_append (word rest : List Char) : skip? word (word ++ rest) = some rest := by
  induction word with
  | nil => rfl
  | cons c word ih => simp [skip?, ih]

/-- What begins with a blank or not at all does not begin with a comma. -/
theorem skip?_comma {rest : List Char} (h : ∀ c ∈ rest.head?, c = ' ') :
    skip? (", " : String).toList rest = none := by
  cases rest with
  | nil => rfl
  | cons c rest =>
    have hc : c = ' ' := h c (by simp)
    rw [hc]
    rfl

section Series

variable {α β : Type} {item : Reader α} {words : List (String × β)}

/-- An item of a series: the word before it and the text of the item, each with its
meaning. -/
structure Link (α β : Type) where
  /-- The word before the item. -/
  word : String
  /-- The meaning of the word. -/
  label : β
  /-- The text of the item. -/
  text : String
  /-- The meaning of the text. -/
  item : α

/-- The text of an item after its word. -/
def Link.spelling (l : Link α β) : List Char := l.word.toList ++ l.text.toList

/-- The item is read, and its word is one of those that end what stands before. -/
structure Link.IsRead (item : Reader α) (words : List (String × β)) (l : Link α β) : Prop where
  /-- The word is found. -/
  word : ∀ rest, oneOf? words (l.word.toList ++ rest) = some (l.label, rest)
  /-- The word is an end. -/
  ends : ∀ rest, Ends (l.word.toList ++ rest)
  /-- The item is read. -/
  item : Reads item l.text l.item

/-- A series of items is read, item by item, up to an end that is no word. -/
theorem series?_spelling {label : Option β} {text : String} {a : α} (ha : Reads item text a)
    {links : List (Link α β)} (hlinks : ∀ l ∈ links, l.IsRead item words)
    {rest : List Char} (hends : Ends rest) (hrest : oneOf? words rest = none) :
    series? item words label (text.toList ++ (links.flatMap Link.spelling ++ rest)) =
      some ((label, a) :: links.map fun l => (some l.label, l.item), rest) := by
  induction links generalizing label text a with
  | nil =>
    rw [series?, List.flatMap_nil, List.nil_append, ha rest hends]
    simp [hrest]
  | cons l links ih =>
    obtain ⟨hl, hlinks⟩ := List.forall_mem_cons.mp hlinks
    have htail := @ih (some l.label) _ _ hl.item hlinks
    rw [List.flatMap_cons, Link.spelling, List.append_assoc, List.append_assoc, series?,
      ha _ (hl.ends _)]
    simp only [hl.word]
    -- A word is not empty, since it is an end whatever follows it.
    have hword : l.word.toList ≠ [] := by
      intro hnil
      have := hl.ends ['x']
      rw [hnil] at this
      simp [Ends] at this
    have hlength : 0 < l.word.toList.length := List.length_pos_iff.mpr hword
    rw [if_pos (by simp only [List.length_append]; omega), htail]
    rfl

/-- Items with a fixed separator before each are linked by it. -/
theorem exists_links {sep : String} (hsep : ∀ rest, Ends (sep.toList ++ rest))
    {texts : List String} {items : List α} (h : List.Forall₂ (Reads item) texts items) :
    ∃ links : List (Link α Unit), (∀ l ∈ links, l.IsRead item [(sep, ())]) ∧
      links.map Link.item = items ∧
      links.flatMap Link.spelling = (String.join (texts.map (sep ++ ·))).toList := by
  induction h with
  | nil => exact ⟨[], by simp⟩
  | @cons text a texts items ha _ ih =>
    obtain ⟨links, hread, hitems, htexts⟩ := ih
    refine ⟨⟨sep, (), text, a⟩ :: links, ?_, by simp [hitems], ?_⟩
    · refine List.forall_mem_cons.mpr ⟨⟨fun rest => ?_, hsep, ha⟩, hread⟩
      simp [oneOf?]
    · rw [List.flatMap_cons, htexts, List.map_cons, String.join_cons]
      simp [Link.spelling]

/-- A list with a separator is read, item by item, up to an end that does not begin with
the separator. -/
theorem list?_intercalate {sep : String} (hsep : ∀ rest, Ends (sep.toList ++ rest))
    {texts : List String} {items : List α} (h : List.Forall₂ (Reads item) texts items)
    (hne : texts ≠ []) {rest : List Char} (hends : Ends rest)
    (hrest : skip? sep.toList rest = none) :
    list? item sep ((sep.intercalate texts).toList ++ rest) = some (items, rest) := by
  have hnone : oneOf? [(sep, ())] rest = none := by simp [oneOf?, hrest]
  cases h with
  | nil => exact absurd rfl hne
  | cons ha h =>
    obtain ⟨links, hread, hitems, htexts⟩ := exists_links hsep h
    rw [list?, intercalate_cons, String.toList_append, ← htexts, List.append_assoc,
      series?_spelling ha hread hends hnone]
    simp [← hitems, Function.comp_def]

end Series

end SqlText.Grammar
