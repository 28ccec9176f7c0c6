import SqlText.Proofs.Demands
import SqlText.Proofs.Outside
import SqlText.Proofs.Strictness

/-!
# Reports of a call

A report is made where an error arises, by the piece of the draft at which the builder
stops, and nobody makes it again on the way out. A strict builder therefore reports nothing
or exactly the error that it returns; a lenient one reports the problems it has passed and
then the error of the escaper. A report names a statement only if a template and its
arguments differ in number.
-/

namespace SqlText

/-- An error with the statement that its report names. -/
abbrev Problem := Error × Option String

/-- The problem that a piece is, if it is one. -/
def Piece.problem? : Piece → Option Problem
  | .problem e sql => some (e, sql)
  | _ => none

/-- Problems are read off a draft. -/
def Reading.problems : Reading Problem where
  ofPiece piece := piece.problem?.toList
  ofPiece_fixed _ := rfl

/-- The report of a problem. -/
def Piece.report? : Piece → Option Report
  | .problem e sql => Report.ofError? e sql
  | _ => none

/-- The piece names no statement. -/
def Piece.IsLocal : Piece → Prop
  | .problem _ sql => sql = none
  | _ => True

namespace Draft

/-- The reports of the problems in a draft, in order. -/
def reports (d : Draft) : List Report := d.filterMap Piece.report?

/-- No problem in the draft names a statement. -/
def IsLocal (d : Draft) : Prop := ∀ piece ∈ d, piece.IsLocal

/-- The problems of a draft, in order. -/
def problems (d : Draft) : List Problem := Reading.problems.ofDraft d

variable {d e : Draft}

@[simp] theorem problems_nil : problems [] = [] := rfl

@[simp] theorem problems_fixed (text : String) : problems (.fixed text :: d) = d.problems := rfl

@[simp] theorem problems_quoted (raw : String) : problems (.quoted raw :: d) = d.problems := rfl

@[simp] theorem problems_identifier (raw : String) :
    problems (.identifier raw :: d) = d.problems := rfl

@[simp] theorem problems_problem (error : Error) (sql : Option String) :
    problems (.problem error sql :: d) = (error, sql) :: d.problems := rfl

@[simp] theorem problems_append : problems (d ++ e) = d.problems ++ e.problems :=
  Reading.problems.ofDraft_append

@[simp] theorem isLocal_nil : IsLocal [] := by simp [IsLocal]

@[simp] theorem isLocal_cons {piece : Piece} :
    IsLocal (piece :: d) ↔ piece.IsLocal ∧ d.IsLocal := by
  simp only [IsLocal, List.mem_cons, forall_eq_or_imp]

@[simp] theorem isLocal_append : IsLocal (d ++ e) ↔ d.IsLocal ∧ e.IsLocal := by
  simp only [IsLocal, List.mem_append, or_imp, forall_and]

/-- A draft names no statement when no problem in it does. -/
theorem isLocal_iff : d.IsLocal ↔ ∀ problem ∈ d.problems, problem.2 = none := by
  induction d with
  | nil => simp
  | cons piece d ih =>
    cases piece with
    | problem error sql =>
      rw [isLocal_cons, ih, problems_problem, List.forall_mem_cons]
      rfl
    | fixed | quoted | identifier => simpa [Piece.IsLocal] using ih

/-- A clean draft has no problems. -/
theorem Clean.problems_eq_nil (h : d.Clean) : d.problems = [] := by
  induction d with
  | nil => rfl
  | cons piece d ih =>
    obtain ⟨htext, hclean⟩ := clean_cons.mp h
    cases piece with
    | problem error sql => cases htext
    | fixed | quoted | identifier => exact ih hclean

/-- The reports of a draft are those of its problems. -/
theorem reports_eq (d : Draft) :
    d.reports = d.problems.filterMap fun problem => Report.ofError? problem.1 problem.2 := by
  induction d with
  | nil => rfl
  | cons piece d ih =>
    cases piece with
    | problem error sql =>
      rw [reports, problems_problem, List.filterMap_cons, List.filterMap_cons, ← ih]
      rfl
    | fixed | quoted | identifier => exact ih

/-- A clean draft reports nothing. -/
theorem Clean.reports_eq_nil (h : d.Clean) : d.reports = [] := by
  rw [reports_eq, h.problems_eq_nil, List.filterMap_nil]

/-- Drafts with a fixed separator. -/
theorem isLocal_intercalate (sep : String) {ds : List Draft} (h : ∀ d ∈ ds, d.IsLocal) :
    IsLocal ([Piece.fixed sep].intercalate ds) := by
  rw [isLocal_iff, problems, Reading.ofDraft_intercalate]
  intro problem hproblem
  obtain ⟨d, hd, hmem⟩ := List.mem_flatMap.mp hproblem
  exact isLocal_iff.mp (h d hd) problem hmem

end Draft

namespace Outcome

/-- The report of an error. -/
theorem reports_noticeOf (e : Error) (sql : Option String) :
    (noticeOf e sql).filterMap Notice.report? = (Report.ofError? e sql).toList := by
  unfold noticeOf
  cases Report.ofError? e sql <;> rfl

/-- A text put in front of the texts leaves an error as it is. -/
theorem result_of_before {text : String} {o : Outcome (List String)} {e : Error}
    (h : (o.before text).result = .error e) : o.result = .error e := by
  obtain ⟨notices, result⟩ := o
  cases result with
  | ok texts => cases h
  | error e' => exact h

end Outcome

namespace Builder

/-- Why a builder stops at a piece: the escaper fails, or a strict builder comes to a
problem. The report of the error names the statement that the problem names. -/
inductive StopsAt (b : Builder) : Piece → Error → Option String → Prop where
  /-- The escaper fails at something from outside. -/
  | escaper {piece : Piece} {raw : Outside} {e : Error} :
      piece.part? = some (.outside raw) → raw.text b.escaper = .error e → b.StopsAt piece e none
  /-- A strict builder does not go on after a problem. -/
  | problem {e : Error} {sql : Option String} :
      b.strict = true → b.StopsAt (.problem e sql) e sql

variable {b : Builder} {d : Draft} {e : Error}

/-- A builder goes on after a piece. -/
structure Passes (b : Builder) (piece : Piece) (d : Draft) : Prop where
  /-- A strict builder goes on after text only. -/
  isText : b.strict = true → piece.isText = true
  /-- If it fails later, then as it fails at the rest alone. -/
  result : ∀ e, (b.carryOut (piece :: d)).result = .error e → (b.carryOut d).result = .error e
  /-- It has reported the problem that the piece is, if it is one. -/
  reports : (b.carryOut (piece :: d)).reports = piece.report?.toList ++ (b.carryOut d).reports

/-- A builder that puts a text in front goes on. -/
theorem passes_of_before {piece : Piece} {text : String} (htext : piece.isText = true)
    (h : b.carryOut (piece :: d) = (b.carryOut d).before text) : b.Passes piece d where
  isText _ := htext
  result e := by
    rw [h]
    exact Outcome.result_of_before
  reports := by
    rw [h]
    cases piece with
    | problem => cases htext
    | _ => rfl

/-- At every piece a builder stops and reports the error, or it goes on. -/
theorem carryOut_step (b : Builder) (piece : Piece) (d : Draft) :
    (∃ e sql, b.StopsAt piece e sql ∧ b.carryOut (piece :: d) = .failReported e sql) ∨
      b.Passes piece d := by
  cases hpart : piece.part? with
  | some p =>
    have htext : piece.isText = true := by
      cases piece with
      | problem => cases hpart
      | _ => rfl
    cases p with
    | fixed text =>
      cases piece with
      | fixed => exact .inr (passes_of_before rfl rfl)
      | _ => cases hpart
    | outside raw =>
      obtain ⟨hok, herror⟩ := b.carryOut_outside hpart d
      cases hraw : raw.text b.escaper with
      | ok text => exact .inr (passes_of_before htext (hok text hraw))
      | error e => exact .inl ⟨e, none, .escaper hpart hraw, herror e hraw⟩
  | none =>
    cases piece with
    | problem error sql =>
      cases hstrict : b.strict with
      | true => exact .inl ⟨error, sql, .problem hstrict, by rw [carryOut, if_pos hstrict]⟩
      | false =>
        have hcarry : b.carryOut (.problem error sql :: d) =
            (b.carryOut d).after (Outcome.noticeOf error sql) := by
          rw [carryOut, hstrict]
          rfl
        refine .inr ⟨fun h => ?_, fun e h => ?_, ?_⟩
        · rw [hstrict] at h
          cases h
        · rwa [hcarry] at h
        · rw [hcarry, Outcome.reports, Outcome.after, List.filterMap_append,
            Outcome.reports_noticeOf]
          rfl
    | _ => cases hpart

/-- A builder that fails has stopped at a piece. It has reported the problems before that
piece, of which there are none if it is strict, and the error it returns. -/
theorem exists_stop (h : (b.carryOut d).result = .error e) :
    ∃ before piece after sql, d = before ++ piece :: after ∧ b.StopsAt piece e sql ∧
      (b.strict = true → Draft.Clean before) ∧
      (b.carryOut d).reports = Draft.reports before ++ (Report.ofError? e sql).toList := by
  induction d with
  | nil => cases h
  | cons piece d ih =>
    rcases b.carryOut_step piece d with ⟨e', sql, hstops, hcarry⟩ | hpasses
    · rw [hcarry] at h ⊢
      cases h
      exact ⟨[], piece, d, sql, rfl, hstops, fun _ => by simp [Draft.Clean],
        Outcome.reports_noticeOf _ sql⟩
    · obtain ⟨before, last, after, sql, rfl, hstops, hclean, hrest⟩ := ih (hpasses.result e h)
      refine ⟨piece :: before, last, after, sql, rfl, hstops,
        fun hstrict => Draft.clean_cons.mpr ⟨hpasses.isText hstrict, hclean hstrict⟩, ?_⟩
      rw [hpasses.reports, hrest, ← List.append_assoc]
      cases hreport : piece.report? <;> simp [Draft.reports, hreport]

/-- Joining the texts of a draft does not fail. -/
theorem result_perform_eq_error :
    (b.perform d).result = .error e ↔ (b.carryOut d).result = .error e := by
  unfold perform
  cases hresult : (b.carryOut d).result with
  | error e' => simp [(Outcome.andThen_of_error hresult _).1]
  | ok texts => simp [(Outcome.andThen_of_ok hresult _).1, pure]

/-- Joining the texts of a draft is not reported. -/
theorem reports_perform (b : Builder) (d : Draft) :
    (b.perform d).reports = (b.carryOut d).reports := by
  unfold perform
  cases hresult : (b.carryOut d).result with
  | error e => exact (Outcome.andThen_of_error hresult _).2
  | ok texts => exact (Outcome.andThen_of_ok hresult _).2.trans (List.append_nil _)

/-- A strict builder that fails at a draft that names no statement reports the error and
nothing else. -/
theorem reports_of_isLocal (hstrict : b.strict = true) (hlocal : d.IsLocal)
    (h : (b.perform d).result = .error e) :
    (b.perform d).reports = (Report.ofError? e none).toList := by
  obtain ⟨before, piece, after, sql, rfl, hstops, hclean, hreports⟩ :=
    exists_stop (result_perform_eq_error.mp h)
  have hsql : sql = none := by
    cases hstops with
    | escaper => rfl
    | problem => exact hlocal _ (List.mem_append_right _ List.mem_cons_self)
  rw [reports_perform, hreports, (hclean hstrict).reports_eq_nil, hsql, List.nil_append]

/-- A lenient builder that fails has come to something from outside that its escaper does not
take. It has reported the problems before, and the error last. -/
theorem reports_of_lenient (hlenient : b.strict = false) (h : (b.perform d).result = .error e) :
    ∃ before piece after raw, d = before ++ piece :: after ∧ piece.part? = some (.outside raw) ∧
      raw.text b.escaper = .error e ∧
      (b.perform d).reports = Draft.reports before ++ (Report.ofError? e none).toList := by
  obtain ⟨before, piece, after, sql, rfl, hstops, _, hreports⟩ :=
    exists_stop (result_perform_eq_error.mp h)
  cases hstops with
  | @escaper piece raw e hpart htext =>
    exact ⟨before, piece, after, raw, rfl, hpart, htext, by rw [reports_perform, hreports]⟩
  | problem hstrict =>
    rw [hlenient] at hstrict
    cases hstrict

end Builder

namespace Literal

open Draft (IsLocal)

variable (strict : Bool)

/-- Integers. -/
theorem isLocal_integer (v : Value) : IsLocal (integer strict v) := by
  unfold integer
  split
  · simp [null, Piece.IsLocal]
  · split <;> simp [mismatch, Piece.IsLocal]

/-- Numbers with fixed decimals. -/
theorem isLocal_float (precision : UInt32) (v : Value) : IsLocal (float strict precision v) := by
  unfold float
  split
  · simp [null, Piece.IsLocal]
  · split <;> simp [mismatch, Piece.IsLocal]

/-- Strings. -/
theorem isLocal_string (v : Value) : IsLocal (string v) := by
  unfold string
  split
  · simp [null, Piece.IsLocal]
  · split <;> simp [mismatch, Piece.IsLocal]

/-- Raw text. -/
theorem isLocal_raw (v : Value) : IsLocal (raw v) := by
  unfold raw
  split <;> simp [mismatch, Piece.IsLocal]

/-- Names. -/
theorem isLocal_name (s : String) : IsLocal (name s) := by
  unfold name
  split
  · refine Draft.isLocal_append.mpr ⟨Draft.isLocal_intercalate "." fun d hd => ?_, ?_⟩
    · obtain ⟨part, _, rfl⟩ := List.mem_map.mp hd
      simp [Piece.IsLocal]
    · simp [Piece.IsLocal]
  · simp [Piece.IsLocal]

/-- Values that are used as names. -/
theorem isLocal_nameOf (v : Value) : IsLocal (nameOf v) := by
  cases v with
  | str | int | float => exact isLocal_name _
  | _ => simp [nameOf, mismatch, Piece.IsLocal]

/-- Sets. -/
theorem isLocal_set (v : Value) : IsLocal (set strict v) := by
  unfold set
  split
  · rename_i items _
    have hitems : IsLocal ([Piece.fixed ", "].intercalate (items.map string)) :=
      Draft.isLocal_intercalate ", " (List.forall_mem_map.mpr fun item _ => isLocal_string item)
    simp [setOf, Piece.IsLocal, hitems]
  · simp [mismatch, Piece.IsLocal]

/-- Assignments. -/
theorem isLocal_fields (v : Value) : IsLocal (fields strict v) := by
  unfold fields
  split
  · refine Draft.isLocal_intercalate ", " (List.forall_mem_map.mpr fun entry _ => ?_)
    simp [assignment, Piece.IsLocal, isLocal_string]
  · simp [mismatch, Piece.IsLocal]

/-- Values of a declared type. -/
theorem isLocal_typed (type : DeclaredType) (precision : UInt32) (v : Value) :
    IsLocal (typed strict type precision v) := by
  cases type with
  | integer => exact isLocal_integer strict v
  | float => exact isLocal_float strict precision v
  | string | binary => exact isLocal_string v

/-- Values whose declared type is given as a tag. -/
theorem isLocal_tagged (tag : String) (precision : UInt32) (v : Value) :
    IsLocal (tagged strict tag precision v) := by
  unfold tagged
  split
  · exact isLocal_typed strict _ precision v
  · simp [Piece.IsLocal]

/-- Arguments of a marker. -/
theorem isLocal_argument (kind : Placeholder) (v : Value) : IsLocal (argument strict kind v) := by
  cases kind with
  | name => exact isLocal_nameOf v
  | string => exact isLocal_string v
  | integer => exact isLocal_integer strict v
  | float precision => exact isLocal_float strict precision v
  | set => exact isLocal_set strict v
  | fields => exact isLocal_fields strict v
  | raw => exact isLocal_raw v

end Literal

/-- Described statements: no name and no value of theirs names a statement. -/
theorem Statement.isLocal_draft (strict : Bool) (s : Statement) :
    Draft.IsLocal (s.draft strict) := by
  rw [Draft.isLocal_iff, Draft.problems, Reading.ofDraft_statement]
  intro problem hproblem
  obtain ⟨demand, _, hmem⟩ := List.mem_flatMap.mp hproblem
  have hlocal := Literal.isLocal_argument strict demand.1 demand.2
  exact Draft.isLocal_iff.mp hlocal problem hmem

/-- Calls: only a template with arguments can be named in a report. -/
theorem Call.isLocal_draft (strict : Bool) {c : Call}
    (h : ∀ template args, c ≠ .substitute template args) : Draft.IsLocal (c.draft strict) := by
  cases c with
  | integer v => exact Literal.isLocal_integer strict v
  | float precision v => exact Literal.isLocal_float strict precision v
  | string v => exact Literal.isLocal_string v
  | set v => exact Literal.isLocal_set strict v
  | assignments v => exact Literal.isLocal_fields strict v
  | raw v => exact Literal.isLocal_raw v
  | name s => exact Literal.isLocal_name s
  | typed type precision v => exact Literal.isLocal_typed strict type precision v
  | tagged tag precision v => exact Literal.isLocal_tagged strict tag precision v
  | substitute template args => exact absurd rfl (h template args)
  | insert table fields => exact (Statement.insert table fields).isLocal_draft strict
  | update table fields conditions =>
    exact (Statement.update table fields conditions).isLocal_draft strict
  | delete table conditions => exact (Statement.delete table conditions).isLocal_draft strict
  | select query => exact (Statement.select query).isLocal_draft strict
  | build statement => exact statement.isLocal_draft strict

namespace Template

variable {b : Builder} {strict : Bool} {ts : List Token} {args : List Value}

/-- Tokens with their arguments. -/
theorem isLocal_paired (strict : Bool) (ts : List Token) (args : List Value) :
    Draft.IsLocal (paired strict ts args) := by
  induction ts generalizing args with
  | nil => exact Draft.isLocal_nil
  | cons token ts ih =>
    cases token with
    | literal text => exact Draft.isLocal_cons.mpr ⟨trivial, ih args⟩
    | marker kind =>
      cases args with
      | nil => exact Draft.isLocal_nil
      | cons v args =>
        exact Draft.isLocal_append.mpr ⟨Literal.isLocal_argument strict kind v, ih args⟩

/-- Tokens with their arguments are written when every argument that has a marker is. -/
theorem exists_writes_paired : (∃ s, b.Writes (paired strict ts args) s) ↔
    ∀ pair ∈ (kinds ts).zip args, ∃ text, b.Writes (Literal.argument strict pair.1 pair.2) text := by
  induction ts generalizing args with
  | nil => simp [paired, kinds]
  | cons token ts ih =>
    cases token with
    | literal text =>
      rw [paired, kinds_literal, ← ih]
      constructor
      · rintro ⟨s, hs⟩
        obtain ⟨t, u, _, hu, _⟩ := Builder.writes_cons.mp hs
        exact ⟨u, hu⟩
      · rintro ⟨u, hu⟩
        exact ⟨_, Builder.writes_cons.mpr ⟨text, u, Builder.writes_fixed.mpr rfl, hu, rfl⟩⟩
    | marker kind =>
      cases args with
      | nil => simp [paired]
      | cons v args =>
        rw [paired, kinds_marker, List.zip_cons_cons, List.forall_mem_cons, ← ih]
        constructor
        · rintro ⟨s, hs⟩
          obtain ⟨t, u, ht, hu, _⟩ := Builder.writes_append.mp hs
          exact ⟨⟨t, ht⟩, u, hu⟩
        · rintro ⟨⟨t, ht⟩, u, hu⟩
          exact ⟨_, Builder.writes_append.mpr ⟨t, u, ht, hu, rfl⟩⟩

/-- With as many arguments as markers, the draft of a template is that of its pairs. -/
theorem draft_of_count_eq {template : String} (h : args.length = placeholderCount template) :
    draft strict template args = paired strict (tokens template) args := by
  rw [placeholderCount_eq] at h
  exact fill_eq_paired h.symm

/-- Otherwise a strict builder comes to the problem after the pairs. -/
theorem draft_of_count_ne {template : String} (h : args.length ≠ placeholderCount template) :
    ∃ rest, draft true template args = paired true (tokens template) args ++
      (countProblem template args.length :: rest) := by
  have hcount := placeholderCount_eq template
  rcases Nat.lt_or_gt_of_ne h with hmissing | hsurplus
  · exact fill_of_missing (hcount ▸ hmissing)
  · exact ⟨[], fill_of_surplus (hcount ▸ hsurplus)⟩

end Template

/-- The error of the call is its own count of markers and arguments: the template has more or
fewer markers than arguments, and every argument that has a marker can be written. -/
def Call.IsMiscounted (b : Builder) (c : Call) (template : String) (e : Error) : Prop :=
  ∃ args, c = .substitute template args ∧ args.length ≠ Template.placeholderCount template ∧
    e = .argumentCount (Template.placeholderCount template) args.length ∧
    ∀ pair ∈ (Template.kinds (Template.tokens template)).zip args,
      ∃ text, b.Writes (Literal.argument b.strict pair.1 pair.2) text

/-- A template counts for itself, once its pairs can be written. -/
theorem Call.isMiscounted_substitute {b : Builder} {template t : String} {args : List Value}
    {e : Error} : (Call.substitute template args).IsMiscounted b t e ↔
      template = t ∧ args.length ≠ Template.placeholderCount template ∧
        e = .argumentCount (Template.placeholderCount template) args.length ∧
        ∃ s, b.Writes (Template.paired b.strict (Template.tokens template) args) s := by
  rw [Template.exists_writes_paired]
  constructor
  · rintro ⟨args', hcall, hcount, he, hwrites⟩
    obtain ⟨rfl, rfl⟩ := Call.substitute.inj hcall
    exact ⟨rfl, hcount, he, hwrites⟩
  · rintro ⟨rfl, hcount, he, hwrites⟩
    exact ⟨args, rfl, hcount, he, hwrites⟩

namespace Builder

variable {b : Builder} {e : Error}

/-- A strict builder comes to a problem after a draft, or fails in the draft before. -/
theorem reports_before_problem (hstrict : b.strict = true) {d : Draft} (hlocal : d.IsLocal)
    {error : Error} {sql : Option String} {rest : Draft}
    (h : (b.perform (d ++ .problem error sql :: rest)).result = .error e) :
    ((∃ s, b.Writes d s) ∧ e = error ∧
      (b.perform (d ++ .problem error sql :: rest)).reports = (Report.ofError? e sql).toList) ∨
    ((¬∃ s, b.Writes d s) ∧
      (b.perform (d ++ .problem error sql :: rest)).reports = (Report.ofError? e none).toList) := by
  have hproblem : b.perform (.problem error sql :: rest) = .failReported error sql := by
    rw [perform, carryOut, if_pos hstrict]
    rfl
  rw [perform_append, hproblem] at h ⊢
  cases hresult : (b.perform d).result with
  | error e' =>
    rw [(Outcome.andThen_of_error hresult _).1] at h
    obtain rfl : e' = e := Except.error.inj h
    rw [(Outcome.andThen_of_error hresult _).2]
    refine .inr ⟨?_, reports_of_isLocal hstrict hlocal hresult⟩
    rintro ⟨s, hs⟩
    rw [Writes, hresult] at hs
    cases hs
  | ok s =>
    have hwrites : b.Writes d s := hresult
    rw [(Outcome.andThen_of_ok hresult _).1] at h
    obtain rfl : error = e := Except.error.inj h
    rw [(Outcome.andThen_of_ok hresult _).2, hwrites.reports_eq_nil (hwrites.clean hstrict)]
    exact .inl ⟨⟨s, hwrites⟩, rfl, Outcome.reports_noticeOf error sql⟩

/-- A strict builder that fails at a template reports the error and nothing else, and names the
template only for its own count. -/
theorem reports_substitute (hstrict : b.strict = true) {template : String} {args : List Value}
    (h : (b.substitute template args).result = .error e) :
    ∃ sql, (b.substitute template args).reports = (Report.ofError? e sql).toList ∧
      ∀ t, sql = some t ↔ (Call.substitute template args).IsMiscounted b t e := by
  simp only [Call.isMiscounted_substitute]
  rw [substitute, result_finish, hstrict] at h
  rw [substitute, reports_finish, hstrict]
  have hpaired := Template.isLocal_paired true (Template.tokens template) args
  by_cases hcount : args.length = Template.placeholderCount template
  · rw [Template.draft_of_count_eq hcount] at h ⊢
    refine ⟨none, reports_of_isLocal hstrict hpaired h, fun t => ?_⟩
    exact iff_of_false (Option.some_ne_none t).symm fun hmiscounted => hmiscounted.2.1 hcount
  · obtain ⟨rest, hdraft⟩ := Template.draft_of_count_ne hcount
    rw [hdraft] at h ⊢
    rcases reports_before_problem hstrict hpaired h with
      ⟨hwrites, he, hreports⟩ | ⟨hfails, hreports⟩
    · refine ⟨some template, hreports, fun t => ?_⟩
      rw [Option.some.injEq]
      exact ⟨fun ht => ⟨ht, hcount, he, hwrites⟩, And.left⟩
    · refine ⟨none, hreports, fun t => ?_⟩
      exact iff_of_false (Option.some_ne_none t).symm fun hmiscounted => hfails hmiscounted.2.2.2

/-- A strict builder that fails at a call reports the error and nothing else. -/
theorem reports_of_strict (hstrict : b.strict = true) {c : Call}
    (h : (b.answer c).result = .error e) :
    ∃ sql, (b.answer c).reports = (Report.ofError? e sql).toList ∧
      ∀ template, sql = some template ↔ c.IsMiscounted b template e := by
  by_cases hcall : ∃ template args, c = .substitute template args
  · obtain ⟨template, args, rfl⟩ := hcall
    exact reports_substitute hstrict h
  · have hother : ∀ template args, c ≠ .substitute template args := fun template args heq =>
      hcall ⟨template, args, heq⟩
    have hcount (template : String) : ¬c.IsMiscounted b template e := fun ⟨args, heq, _⟩ =>
      hother template args heq
    refine ⟨none, ?_, fun template =>
      iff_of_false (Option.some_ne_none template).symm (hcount template)⟩
    cases hsets : c.setsNothing with
    | true =>
      obtain ⟨message, hrefused⟩ := b.answer_of_setsNothing hsets
      rw [hrefused] at h ⊢
      cases h
      rfl
    | false =>
      rw [result_answer hsets] at h
      rw [reports_answer hsets]
      exact reports_of_isLocal hstrict (c.isLocal_draft b.strict hother) h

/-- A strict builder that writes a text has reported nothing. -/
theorem reports_eq_nil_of_strict (hstrict : b.strict = true) {c : Call} {sql : String}
    (h : (b.answer c).result = .ok sql) : (b.answer c).reports = [] := by
  cases hsets : c.setsNothing with
  | true =>
    obtain ⟨message, hrefused⟩ := b.answer_of_setsNothing hsets
    rw [hrefused] at h
    cases h
  | false =>
    rw [result_answer hsets] at h
    have hwrites : b.Writes (c.draft b.strict) sql := h
    rw [reports_answer hsets]
    exact hwrites.reports_eq_nil (hwrites.clean hstrict)

end Builder

end SqlText
