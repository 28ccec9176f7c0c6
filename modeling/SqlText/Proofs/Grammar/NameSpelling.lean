import SqlText.Proofs.Grammar.Term

/-!
# Names read back

A name is its text without the blanks around it, taken apart: what stands between the dots
of the first word, and everything from the first blank inside. Nothing is lost on the way,
neither when the text is read nor when the name is written with the rules of MySQL. The
parts and the rest can be told from what is written, so names that are written alike come
from texts that differ in the blanks around them at most.
-/

namespace SqlText

namespace Text

variable {cs : List Char}

/-- Blanks around a text do not change what is left between them. -/
theorem trimmed_append {before after : List Char} (hbefore : ∀ c ∈ before, isBlank c = true)
    (hafter : ∀ c ∈ after, isBlank c = true) : trimmed (before ++ cs ++ after) = trimmed cs := by
  have hreverse : ∀ c ∈ after.reverse, isBlank c = true := by
    intro c hc
    exact hafter c (List.mem_reverse.mp hc)
  unfold trimmed
  rw [List.append_assoc, List.dropWhile_append_of_pos hbefore, List.dropWhile_append]
  by_cases hblank : (cs.dropWhile isBlank).isEmpty = true
  · rw [if_pos hblank, List.isEmpty_iff.mp hblank, List.dropWhile_eq_nil_iff.mpr hafter]
  · rw [if_neg hblank, List.reverse_append, List.dropWhile_append_of_pos hreverse]

/-- What is left between the blanks ends with no blank. -/
theorem getLast?_trimmed : ∀ c ∈ (trimmed cs).getLast?, isBlank c = false := by
  intro c hc
  have hhead := List.head?_dropWhile_not isBlank (cs.dropWhile isBlank).reverse
  rw [trimmed, List.getLast?_reverse] at hc
  rwa [Option.mem_def.mp hc] at hhead

/-- A part between separators has the characters of the text, and no separator. -/
theorem of_mem_splitOn {sep : Char} {part : List Char} (hpart : part ∈ cs.splitOn sep) :
    ∀ c ∈ part, c ≠ sep ∧ c ∈ cs := by
  induction cs generalizing part with
  | nil =>
    rw [List.splitOn_nil, List.mem_singleton] at hpart
    simp [hpart]
  | cons d cs ih =>
    rw [List.splitOn_cons_eq_if_modifyHead] at hpart
    have hlater {part : List Char} (h : part ∈ cs.splitOn sep) :
        ∀ c ∈ part, c ≠ sep ∧ c ∈ d :: cs :=
      fun c hc => (ih h c hc).imp_right (List.mem_cons_of_mem d)
    split at hpart
    · rcases List.mem_cons.mp hpart with rfl | hpart
      · simp
      · exact hlater hpart
    · rename_i hd
      -- The character goes to the front of the first part.
      obtain ⟨first, more, hsplit⟩ := List.exists_cons_of_ne_nil (List.splitOn_ne_nil sep cs)
      rw [hsplit, List.modifyHead_cons] at hpart
      rw [hsplit] at hlater
      rcases List.mem_cons.mp hpart with rfl | hpart
      · intro c hc
        rcases List.mem_cons.mp hc with rfl | hc
        · exact ⟨by simpa using hd, List.mem_cons_self⟩
        · exact hlater List.mem_cons_self c hc
      · exact hlater (List.mem_cons_of_mem first hpart)

end Text

namespace Name

/-- The name is the text taken apart. -/
structure Splits (n : Name) (s : String) : Prop where
  /-- The parts with dots between them, and then the rest, are the text without the blanks
  around it. -/
  text : ".".intercalate n.parts ++ n.suffix = String.ofList (Text.trimmed s.toList)
  /-- There is a part. -/
  parts_ne_nil : n.parts ≠ []
  /-- A part has neither a dot nor a blank in it. -/
  part : ∀ part ∈ n.parts, ∀ c ∈ part.toList, c ≠ '.' ∧ Text.isBlank c = false
  /-- The rest begins with a blank, if there is any. -/
  suffix_head : ∀ c ∈ n.suffix.toList.head?, Text.isBlank c = true
  /-- The rest does not end with a blank. -/
  suffix_last : ∀ c ∈ n.suffix.toList.getLast?, Text.isBlank c = false

/-- Blanks around a name do not change it. -/
theorem parse?_append {before s after : String}
    (hbefore : ∀ c ∈ before.toList, Text.isBlank c = true)
    (hafter : ∀ c ∈ after.toList, Text.isBlank c = true) :
    parse? (before ++ s ++ after) = parse? s := by
  simp only [parse?, String.toList_append, Text.trimmed_append hbefore hafter]

/-- A name is read as its text taken apart. -/
theorem splits_of_parse? {s : String} {n : Name} (h : parse? s = some n) : n.Splits s := by
  unfold parse? at h
  dsimp only at h
  split at h
  · cases h
  · cases h
    generalize hcs : Text.trimmed s.toList = cs
    have hlast : ∀ c ∈ cs.getLast?, Text.isBlank c = false := hcs ▸ Text.getLast?_trimmed
    have hwhole := List.takeWhile_append_dropWhile (p := (!Text.isBlank ·)) (l := cs)
    constructor
    · have hparts : ['.'].intercalate ((cs.takeWhile (!Text.isBlank ·)).splitOn '.') =
          cs.takeWhile (!Text.isBlank ·) := List.intercalate_splitOn '.'
      apply String.toList_inj.mp
      simp [Function.comp_def, hparts, hwhole, hcs]
    · simp [List.splitOn_ne_nil]
    · intro part hpart c hc
      obtain ⟨word, hword, rfl⟩ := List.mem_map.mp hpart
      rw [String.toList_ofList] at hc
      obtain ⟨hdot, hmem⟩ := Text.of_mem_splitOn hword c hc
      exact ⟨hdot, by simpa using List.mem_takeWhile_imp hmem⟩
    · intro c hc
      rw [String.toList_ofList] at hc
      have hhead := List.head?_dropWhile_not (!Text.isBlank ·) cs
      rw [Option.mem_def.mp hc] at hhead
      simpa using hhead
    · intro c hc
      rw [String.toList_ofList] at hc
      apply hlast
      rw [← hwhole, List.getLast?_append, Option.mem_def.mp hc]
      rfl

/-- Empty parts, a part of backticks and wide blanks. -/
example : parse? "\u3000 a..`` .\u2003b \n" = some ⟨["a", "", "``"], " .\u2003b"⟩ := by
  decide +kernel

end Name

namespace Grammar

/-- A name ends at a blank. -/
theorem EndsName.of_blank {rest : List Char} (h : ∀ c ∈ rest.head?, Text.isBlank c = true) :
    EndsName rest := by
  intro c hc
  constructor
  all_goals
    rintro rfl
    exact absurd (h _ hc) (by decide)

/-- What is written for a name is read as its parts, and its rest is left. -/
theorem name?_of_splits {n : Name} {s : String} (h : n.Splits s) :
    name? (nameText n.parts ++ n.suffix).toList = some (n.parts, n.suffix.toList) := by
  rw [String.toList_append]
  exact name?_nameText h.parts_ne_nil (.of_blank h.suffix_head)

/-- Every text but one of blanks is a name, and blanks around it make no difference. The name
is the text taken apart. With the rules of MySQL it is always written, and a reader that takes
identifiers in backticks and the dots between them, as long as they go on, gets its parts and
leaves its rest. Two names that are written alike come from the same text, the blanks around
it left out. -/
theorem names_read_back :
    (∀ s, Name.parse? s = none ↔ ∀ c ∈ s.toList, Text.isBlank c = true) ∧
    (∀ before s after : String, (∀ c ∈ before.toList, Text.isBlank c = true) →
      (∀ c ∈ after.toList, Text.isBlank c = true) →
      Name.parse? (before ++ s ++ after) = Name.parse? s) ∧
    (∀ s n strict, Name.parse? s = some n → n.Splits s ∧
      ∃ sql, ((⟨.mysql, strict⟩ : Builder).perform n.draft).result = .ok sql ∧
        name? sql.toList = some (n.parts, n.suffix.toList)) ∧
    ∀ s s' n n' strict strict' sql, Name.parse? s = some n → Name.parse? s' = some n' →
      ((⟨.mysql, strict⟩ : Builder).perform n.draft).result = .ok sql →
      ((⟨.mysql, strict'⟩ : Builder).perform n'.draft).result = .ok sql →
      Text.trimmed s.toList = Text.trimmed s'.toList := by
  refine ⟨fun _ => Name.parse?_eq_none_iff, fun _ _ _ => Name.parse?_append, ?_, ?_⟩
  · intro s n strict h
    have hsplits := Name.splits_of_parse? h
    exact ⟨hsplits, _, (writes_draft rfl).mpr rfl, name?_of_splits hsplits⟩
  · intro s s' n n' strict strict' sql h h' hsql hsql'
    have hsplits := Name.splits_of_parse? h
    have hsplits' := Name.splits_of_parse? h'
    have hread := name?_of_splits hsplits
    rw [← (writes_draft (b := ⟨.mysql, strict⟩) rfl).mp hsql,
      (writes_draft (b := ⟨.mysql, strict'⟩) rfl).mp hsql', name?_of_splits hsplits'] at hread
    simp only [Option.some.injEq, Prod.mk.injEq, String.toList_inj] at hread
    obtain ⟨hparts, hsuffix⟩ := hread
    apply String.ofList_injective
    rw [← hsplits.text, ← hsplits'.text, hparts, hsuffix]

end Grammar

end SqlText
