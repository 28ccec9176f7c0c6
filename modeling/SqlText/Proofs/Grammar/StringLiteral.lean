import SqlText.Proofs.Grammar.Term

/-!
# String literals

A value that is written as a string is read back as its text. The reader needs nothing but
the literal: it stops at the closing quote whatever follows, as long as that is not another
quote, and no character of the text can close the literal or stand in it as a control
character.
-/

namespace SqlText.Grammar

/-- A string in single quotes, as the text it stands for. -/
def string? : Reader String
  | '\'' :: cs => (content? cs).map fun (content, rest) => (.ofList content, rest)
  | _ => none

/-- The characters that are never written as they are: the null character, the line ends and
the end of a file. -/
def controls : List Char := ['\x00', '\n', '\r', '\x1a']

/-- The literal stands for the text: it holds no raw control character, and it is read as the
text and no further, before whatever does not begin with a single quote. -/
structure StandsFor (literal text : String) : Prop where
  /-- No control character stands in the literal. -/
  noControls : ∀ c ∈ controls, c ∉ literal.toList
  /-- The literal is read to its end, and what follows is left. -/
  reads : ∀ rest : List Char, rest.head? ≠ some '\'' →
    string? (literal.toList ++ rest) = some (text, rest)

/-- No character is written with a control character. -/
theorem not_mem_controls {c d : Char} (h : c ∈ Escaper.stringChar d) : c ∉ controls := by
  unfold Escaper.stringChar at h
  split at h
  case h_8 hnull hnewline hreturn _ _ _ hend =>
    rw [List.mem_singleton.mp h]
    simp only [controls, List.mem_cons, List.not_mem_nil, or_false, not_or]
    exact ⟨hnull, hnewline, hreturn, hend⟩
  all_goals
    rcases List.mem_cons.mp h with rfl | h
    · decide
    · rw [List.mem_singleton.mp h]
      decide

/-- A quoted text stands for the text that was quoted. -/
theorem standsFor_enclosed (raw : String) :
    StandsFor (Builder.enclosed '\'' (Escaper.stringBody raw)) raw := by
  constructor
  · intro c hc hmem
    have hquote : c ≠ '\'' := by
      rintro rfl
      revert hc
      decide
    simp only [Builder.enclosed, Escaper.stringBody, String.toList_append,
      String.toList_singleton, String.toList_ofList, List.mem_append, List.mem_singleton,
      hquote, or_false, false_or] at hmem
    obtain ⟨d, _, hd⟩ := List.mem_flatMap.mp hmem
    exact not_mem_controls hd hc
  · intro rest hrest
    have hcontent := content?_stringBody raw.toList ('\'' :: rest)
    simp [Builder.enclosed, Escaper.stringBody, string?, hcontent, content?_close hrest]

/-- A literal stands for one text. -/
theorem StandsFor.text_eq {literal text text' : String} (h : StandsFor literal text)
    (h' : StandsFor literal text') : text = text' := by
  have hread := h.reads [] (by simp)
  rw [h'.reads [] (by simp)] at hread
  cases hread
  rfl

/-- With the rules of MySQL a value without parts is always written as a string, and a
lenient builder writes every value as one. -/
theorem exists_string (strict : Bool) (v : Value) (h : strict = false ∨ v.isComposite = false) :
    ∃ sql, ((⟨.mysql, strict⟩ : Builder).string v).result = .ok sql := by
  unfold Builder.string SqlText.Literal.string
  split
  · exact ⟨_, Builder.writes_fixed.mpr rfl⟩
  · cases htext : v.scalarText? with
    | some text => exact ⟨_, (Builder.writes_quoted_mysql rfl).mpr rfl⟩
    | none =>
      have hcomposite : v.isComposite = true := by
        cases v with
        | list | map => rfl
        | _ => cases htext
      have hlenient : strict = false := h.resolve_right (by simp [hcomposite])
      exact ⟨_, Builder.writes_cons.mpr ⟨_, _, Builder.writes_problem.mpr ⟨hlenient, rfl⟩,
        (Builder.writes_quoted_mysql rfl).mpr rfl, rfl⟩⟩

/-- With the rules of MySQL, in either mode: every text is written as a literal that stands
for it; every value that is written as a string, which in a lenient builder is every value
of any depth, is written as a literal that stands for its text, unless it is null, which is
always written as the keyword. Two values other than null are written alike only if they
have the same text. -/
theorem string_literal_reads_back :
    (∀ strict text, ∃ sql, ((⟨.mysql, strict⟩ : Builder).string (.str text)).result = .ok sql ∧
      StandsFor sql text) ∧
    (∀ strict v sql, v.isNull = false →
      ((⟨.mysql, strict⟩ : Builder).string v).result = .ok sql → StandsFor sql v.toText) ∧
    (∀ v, ∃ sql, ((⟨.mysql, false⟩ : Builder).string v).result = .ok sql) ∧
    (∀ strict v, v.isNull = true →
      ((⟨.mysql, strict⟩ : Builder).string v).result = .ok "NULL") ∧
    (∀ strict strict' v w sql, v.isNull = false → w.isNull = false →
      ((⟨.mysql, strict⟩ : Builder).string v).result = .ok sql →
      ((⟨.mysql, strict'⟩ : Builder).string w).result = .ok sql → v.toText = w.toText) := by
  have hstands (strict : Bool) (v : Value) (sql : String) (hnull : v.isNull = false)
      (h : ((⟨.mysql, strict⟩ : Builder).string v).result = .ok sql) :
      StandsFor sql v.toText := by
    rw [eq_enclosed_of_writes_string (b := ⟨.mysql, strict⟩) rfl hnull h]
    exact standsFor_enclosed v.toText
  refine ⟨fun strict text => ?_, hstands, fun v => exists_string false v (.inl rfl),
    fun strict v hnull => ?_, fun strict strict' v w sql hv hw h h' => ?_⟩
  · obtain ⟨sql, hsql⟩ := exists_string strict (.str text) (.inr rfl)
    exact ⟨sql, hsql, hstands strict (.str text) sql rfl hsql⟩
  · unfold Builder.string SqlText.Literal.string
    rw [if_pos hnull]
    exact Builder.writes_fixed.mpr rfl
  · exact (hstands strict v sql hv h).text_eq (hstands strict' w sql hw h')

/-- A quote and a backslash within a list, where the text of the list escapes the backslash
once and the literal escapes all that the text holds. -/
theorem string_literal_reads_back_list :
    let v : Value := .list [.str "'\\"]
    let sql := "'[\\\"\\'\\\\\\\\\\\"]'"
    ((⟨.mysql, false⟩ : Builder).string v).result = .ok sql ∧ StandsFor sql v.toText := by
  intro v sql
  have h : ((⟨.mysql, false⟩ : Builder).string v).result = .ok sql := by decide +kernel
  exact ⟨h, string_literal_reads_back.2.1 false v sql rfl h⟩

end SqlText.Grammar
