import SqlText.Proofs.Reports

/-!
# The problems of a draft

The rules of MySQL leave nothing unescaped, so only the problems in a draft decide what
becomes of it: a strict builder writes a draft without one, and of any other returns the first;
a lenient builder reports them all. Which problems a call has can be told demand by demand.
-/

namespace SqlText

namespace Builder

variable {b : Builder} {d : Draft}

/-- With the rules of MySQL only a strict builder stops, and only at a problem. -/
theorem StopsAt.of_mysql (hb : b.escaper = .mysql) {piece : Piece} {e : Error}
    {sql : Option String} (h : b.StopsAt piece e sql) :
    b.strict = true ∧ piece = .problem e sql := by
  cases h with
  | @escaper piece raw e hpart htext =>
    obtain ⟨text, hok⟩ := (Part.outside raw).exists_text_mysql
    have herror : (Part.outside raw).text .mysql = .error e := hb ▸ htext
    rw [hok] at herror
    cases herror
  | problem hstrict => exact ⟨hstrict, rfl⟩

/-- A strict builder with the rules of MySQL writes a draft without problems, and returns the
first problem of any other. -/
theorem strict_verdict (d : Draft) :
    (d.problems = [] ∧ ∃ sql, (⟨.mysql, true⟩ : Builder).Writes d sql) ∨
    ∃ e named rest, d.problems = (e, named) :: rest ∧
      ((⟨.mysql, true⟩ : Builder).perform d).result = .error e := by
  cases hresult : ((⟨.mysql, true⟩ : Builder).perform d).result with
  | ok sql =>
    have hwrites : (⟨.mysql, true⟩ : Builder).Writes d sql := hresult
    exact .inl ⟨(hwrites.clean rfl).problems_eq_nil, sql, hwrites⟩
  | error e =>
    obtain ⟨before, piece, after, named, rfl, hstops, hclean, _⟩ :=
      exists_stop (result_perform_eq_error.mp hresult)
    obtain ⟨_, rfl⟩ := hstops.of_mysql rfl
    refine .inr ⟨e, named, Draft.problems after, ?_, rfl⟩
    rw [Draft.problems_append, (hclean rfl).problems_eq_nil, Draft.problems_problem,
      List.nil_append]

/-- A strict builder with the rules of MySQL writes exactly the drafts without problems. -/
theorem exists_writes_iff {d : Draft} :
    (∃ sql, (⟨.mysql, true⟩ : Builder).Writes d sql) ↔ d.problems = [] := by
  rcases strict_verdict d with ⟨hnone, hwrites⟩ | ⟨e, named, rest, hsome, hresult⟩
  · exact iff_of_true hwrites hnone
  · refine iff_of_false ?_ (by simp [hsome])
    rintro ⟨sql, hwrites⟩
    rw [Writes, hresult] at hwrites
    cases hwrites

/-- A strict builder with the rules of MySQL returns the first problem. -/
theorem result_of_problems {d : Draft} {e : Error} {named : Option String} {rest : List Problem}
    (h : d.problems = (e, named) :: rest) :
    ((⟨.mysql, true⟩ : Builder).perform d).result = .error e := by
  rcases strict_verdict d with ⟨hnone, _⟩ | ⟨e', named', rest', hsome, hresult⟩
  · rw [hnone] at h
    cases h
  · rw [hsome] at h
    cases h
    exact hresult

/-- A lenient builder with the rules of MySQL reports every problem of a draft. -/
theorem reports_lenient (d : Draft) :
    ((⟨.mysql, false⟩ : Builder).perform d).reports = d.reports := by
  rw [reports_perform]
  induction d with
  | nil => rfl
  | cons piece d ih =>
    rcases (⟨.mysql, false⟩ : Builder).carryOut_step piece d with ⟨e, sql, hstops, _⟩ | hpasses
    · cases (hstops.of_mysql rfl).1
    · rw [hpasses.reports, ih]
      cases hreport : piece.report? <;> simp [Draft.reports, hreport]

end Builder

end SqlText
