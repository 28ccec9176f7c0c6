import SqlText.Proofs.Misfits

/-!
# What a lenient builder reports

A lenient builder with the rules of MySQL writes every template. It reports what it takes
exception to in the arguments, in their order, and after that once that arguments are missing.
A missing argument is written like the neutral value of its kind. Nothing that a lenient builder
passes over, here or in any other call, is a failed connection.
-/

namespace SqlText

/-- The reports that a lenient builder makes of an argument: no statement is named. -/
def Demand.reports (demand : Demand) : List Report :=
  (demand.1.offences demand.2).map fun e => ⟨.typeMismatch, e.message, none⟩

/-- The problems of an argument are its offences. -/
theorem Demand.problems_eq (demand : Demand) : Reading.problems.ofDemand false demand =
    (demand.1.offences demand.2).map fun e => (e, none) :=
  Literal.problems_argument_lenient demand.1 demand.2

/-- The reports of an argument are those of the problems in its draft. -/
theorem Demand.reports_eq (demand : Demand) :
    demand.reports = (Reading.problems.ofDemand false demand).filterMap fun problem =>
      Report.ofError? problem.1 problem.2 := by
  rw [Demand.problems_eq, Demand.reports, Placeholder.offences, List.map_map, List.map_map,
    List.filterMap_map, ← List.filterMap_eq_map]
  rfl

namespace Template

/-- The report that arguments are missing; it names the template. -/
def countReport (template : String) (given : Nat) : Report :=
  ⟨.argumentCount, (Error.argumentCount (placeholderCount template) given).message, some template⟩

/-- The draft of a template has the problems of its arguments in order, then that some are
missing. -/
theorem problems_draft (template : String) (args : List Value) :
    (draft false template args).problems =
      (demands template args).flatMap (Reading.problems.ofDemand false) ++
        if args.length < placeholderCount template then
          [(.argumentCount (placeholderCount template) args.length, some template)]
        else [] := by
  have hsurplus : (if false then [countProblem template args.length] else [] : Draft) = [] := rfl
  rw [Draft.problems, draft, hsurplus, Reading.ofDraft_fill, ← placeholderCount_eq,
    Reading.ofDraft_nil, ite_self]
  rfl

/-- The draft of a template reports its arguments in order, then that some are missing. -/
theorem reports_draft (template : String) (args : List Value) :
    (draft false template args).reports = (demands template args).flatMap Demand.reports ++
      if args.length < placeholderCount template then [countReport template args.length]
      else [] := by
  rw [Draft.reports_eq, problems_draft, List.filterMap_append, List.filterMap_flatMap]
  simp only [← Demand.reports_eq]
  split <;> rfl

end Template

/-- A lenient builder with the rules of MySQL reports exactly what it takes exception to in the
arguments, from left to right, and then once that there are fewer arguments than markers. -/
theorem Builder.substitute_reports_exactly (template : String) (args : List Value) :
    ((⟨.mysql, false⟩ : Builder).substitute template args).reports =
      (Template.demands template args).flatMap Demand.reports ++
        if args.length < Template.placeholderCount template then
          [Template.countReport template args.length]
        else [] := by
  rw [substitute, reports_finish, reports_lenient]
  exact Template.reports_draft template args

/-- A single value for a set counts as a list of one, and of a map every value counts; what is
no number is an integer without a word. -/
example :
    ((⟨.mysql, false⟩ : Builder).substitute "?a ?a ?i ?n"
      [.bool true, .map [("k", .list []), ("l", .null)], .float .nan, .null]).reports =
        [⟨.typeMismatch, "type mismatch: expected string, found list", none⟩,
          ⟨.typeMismatch, "type mismatch: expected identifier, found null", none⟩] := by
  decide +kernel

namespace Builder

/-- The builder writes two drafts as the same texts. -/
def Alike (b : Builder) (d e : Draft) : Prop := ∀ s, b.Writes d s ↔ b.Writes e s

namespace Alike

variable {b : Builder} {d d' e e' : Draft}

/-- A draft is written like itself. -/
theorem refl (d : Draft) : b.Alike d d := fun _ => Iff.rfl

/-- Drafts one after another. -/
theorem append (hd : b.Alike d d') (he : b.Alike e e') : b.Alike (d ++ e) (d' ++ e') := by
  intro s
  simp only [writes_append, hd _, he _]

end Alike

end Builder

/-- The value that is written like a missing argument of this kind. -/
def Placeholder.neutralValue : Placeholder → Value
  | .integer | .float _ => .int 0
  | .name | .string | .raw => .str ""
  | .set => .list []
  | .fields => .map []

/-- The integer zero is zero as a floating-point number. -/
theorem Number.Binary64.ofInt_zero : ofInt 0 = zero false := by
  decide +kernel

/-- A lenient builder with the rules of MySQL writes a missing argument like a neutral value. -/
theorem Literal.alike_neutral (kind : Placeholder) :
    (⟨.mysql, false⟩ : Builder).Alike (neutral kind) (argument false kind kind.neutralValue) := by
  intro s
  cases kind with
  | integer | fields => exact Iff.rfl
  | float precision =>
    have hdraft : argument false (.float precision) (.int 0) =
        [.fixed ((Number.Binary64.ofInt 0).fixedPoint precision.toNat)] := rfl
    rw [Placeholder.neutralValue, hdraft, Number.Binary64.ofInt_zero]
    exact Iff.rfl
  | string =>
    have hquoted : Builder.enclosed '\'' (Escaper.stringBody "") = "''" := by decide
    have hdraft : argument false .string (.str "") = [.quoted ""] := rfl
    rw [Placeholder.neutralValue, hdraft, Builder.writes_quoted_mysql rfl, hquoted]
    exact Builder.writes_fixed
  | set =>
    have hdraft : argument false .set (.list []) = [.fixed "(", .fixed ")"] := rfl
    rw [Placeholder.neutralValue, hdraft, Builder.writes_cons]
    simp [neutral]
  | name =>
    have hdraft : argument false .name (.str "") =
        [.problem (.typeMismatch "identifier" "empty name") none] := rfl
    rw [Placeholder.neutralValue, hdraft, Builder.writes_problem]
    simp [neutral]
  | raw => exact Builder.writes_nil.trans Builder.writes_fixed.symm

namespace Template

/-- The arguments of a template, filled up with the neutral values of the markers that have
none. -/
def padded (template : String) (args : List Value) : List Value :=
  args ++ ((kinds (tokens template)).drop args.length).map Placeholder.neutralValue

/-- Filled tokens are written as if there were neutral values for the missing arguments. -/
theorem alike_fill {missing missing' : Draft}
    (hmissing : (⟨.mysql, false⟩ : Builder).Alike missing []) (ts : List Token)
    (args : List Value) :
    (⟨.mysql, false⟩ : Builder).Alike (fill false missing [] ts args)
      (fill false missing' [] ts
        (args ++ ((kinds ts).drop args.length).map Placeholder.neutralValue)) := by
  induction ts generalizing missing args with
  | nil =>
    cases args <;> exact .refl []
  | cons token ts ih =>
    cases token with
    | literal text => exact (Builder.Alike.refl [.fixed text]).append (ih hmissing args)
    | marker kind =>
      cases args with
      | nil =>
        have hrest := ih (.refl []) []
        exact (hmissing.append (Literal.alike_neutral kind)).append hrest
      | cons v args => exact (Builder.Alike.refl _).append (ih hmissing args)

/-- With neutral values for the missing arguments there are as many as markers. -/
theorem length_padded {template : String} {args : List Value}
    (h : args.length ≤ placeholderCount template) :
    (padded template args).length = placeholderCount template := by
  rw [placeholderCount_eq] at h ⊢
  rw [padded, List.length_append, List.length_map, List.length_drop]
  omega

/-- The arguments that there are come first. -/
theorem take_demands_padded {template : String} {args : List Value}
    (h : args.length ≤ placeholderCount template) :
    (demands template (padded template args)).take args.length = demands template args := by
  rw [placeholderCount_eq] at h
  have hmin : min (kinds (tokens template)).length args.length = args.length := by omega
  have hpairs : (kinds (tokens template)).zip args =
      ((kinds (tokens template)).take args.length).zip args := by
    refine List.zip_eq_zip_take_min.trans ?_
    rw [hmin, List.take_length]
  rw [demands, demands, padded, hpairs]
  unfold List.zip
  rw [List.take_zipWith, List.take_left]

end Template

/-- Where arguments are missing, a lenient builder with the rules of MySQL writes the same text
as for the neutral value of every marker that has none. Its reports are those it makes then for
the arguments that there are, and after them one that arguments are missing. -/
theorem Builder.missing_arguments_are_neutral {template : String} {args : List Value}
    (h : args.length < Template.placeholderCount template) :
    let b : Builder := ⟨.mysql, false⟩
    let padded := Template.padded template args
    padded.length = Template.placeholderCount template ∧
    (∃ sql, (b.substitute template args).result = .ok sql ∧
      (b.substitute template padded).result = .ok sql) ∧
    (b.substitute template padded).reports =
      (Template.demands template padded).flatMap Demand.reports ∧
    (b.substitute template args).reports =
      ((Template.demands template padded).take args.length).flatMap Demand.reports ++
        [Template.countReport template args.length] := by
  intro b padded
  have hlength : padded.length = Template.placeholderCount template := Template.length_padded h.le
  have hmissing : b.Alike [Template.countProblem template args.length] [] := by
    intro s
    rw [Template.countProblem, writes_problem]
    simp [b]
  have halike : b.Alike (Template.draft false template args)
      (Template.draft false template padded) := Template.alike_fill hmissing _ args
  refine ⟨hlength, ?_, ?_, ?_⟩
  · obtain ⟨texts, htexts⟩ := Part.exists_texts_mysql (Template.draft false template args).parts
    have hwrites : b.Writes (Template.draft false template args) (String.join texts) := by
      rw [Writes, result_perform_lenient, htexts]
      rfl
    refine ⟨String.join texts, ?_, ?_⟩
    · rw [substitute, result_finish]
      exact hwrites
    · rw [substitute, result_finish]
      exact (halike _).mp hwrites
  · rw [substitute, reports_finish, reports_lenient, Template.reports_draft, if_neg (by omega),
      List.append_nil]
  · rw [substitute, reports_finish, reports_lenient, Template.reports_draft, if_pos h,
      Template.take_demands_padded h.le]

/-- Two markers have no argument, which is reported once; a blank name would be reported too. -/
theorem Builder.missing_arguments_are_neutral_number_and_name :
    let b : Builder := ⟨.mysql, false⟩
    [Value.list []].length < Template.placeholderCount "?i ?2f ?n" ∧
    (∃ sql, (b.substitute "?i ?2f ?n" [.list []]).result = .ok sql ∧
      (b.substitute "?i ?2f ?n" [.list [], .int 0, .str ""]).result = .ok sql) ∧
    (b.substitute "?i ?2f ?n" [.list [], .int 0, .str ""]).reports =
      [⟨.typeMismatch, "type mismatch: expected integer, found list", none⟩,
        ⟨.typeMismatch, "type mismatch: expected identifier, found empty name", none⟩] ∧
    (b.substitute "?i ?2f ?n" [.list []]).reports =
      [⟨.typeMismatch, "type mismatch: expected integer, found list", none⟩,
        Template.countReport "?i ?2f ?n" 1] := by
  intro b
  have hkinds : Template.kinds (Template.tokens "?i ?2f ?n") = [.integer, .float 2, .name] := by
    decide +kernel
  have hcount : [Value.list []].length < Template.placeholderCount "?i ?2f ?n" := by
    rw [Template.placeholderCount_eq, hkinds]
    decide
  have hpadded : Template.padded "?i ?2f ?n" [.list []] = [.list [], .int 0, .str ""] := by
    rw [Template.padded, hkinds]
    rfl
  have hdemands : Template.demands "?i ?2f ?n" [.list [], .int 0, .str ""] =
      [(.integer, .list []), (.float 2, .int 0), (.name, .str "")] := by
    rw [Template.demands, hkinds]
    rfl
  obtain ⟨_, hsame, hpaddedReports, hreports⟩ := missing_arguments_are_neutral hcount
  rw [hpadded] at hsame hpaddedReports hreports
  rw [hdemands] at hpaddedReports hreports
  exact ⟨hcount, hsame, hpaddedReports, hreports⟩

section Connections

variable {problem : Problem}

/-- A value that does not fit is no failed connection. -/
theorem Demand.isConnection_of_mem (demand : Demand)
    (h : problem ∈ Reading.problems.ofDemand false demand) : problem.1.isConnection = false := by
  rw [problems_eq] at h
  obtain ⟨e, he, rfl⟩ := List.mem_map.mp h
  obtain ⟨v, _, rfl⟩ := List.mem_map.mp he
  rfl

/-- Nor is a value of a declared type that does not fit. -/
theorem Literal.isConnection_of_mem_typed {type : DeclaredType} {precision : UInt32} {v : Value}
    (h : problem ∈ (typed false type precision v).problems) : problem.1.isConnection = false := by
  rw [Draft.problems, Reading.ofDraft_typed] at h
  exact Demand.isConnection_of_mem _ h

/-- Nor is a tag that names no declared type. -/
theorem Literal.isConnection_of_mem_tagged {tag : String} {precision : UInt32} {v : Value}
    (h : problem ∈ (tagged false tag precision v).problems) : problem.1.isConnection = false := by
  unfold tagged DeclaredType.ofTag at h
  dsimp only at h
  split at h
  · exact isConnection_of_mem_typed h
  · rename_i e hunknown
    split at hunknown
    · cases hunknown
    · cases hunknown
      rw [List.mem_singleton.mp h]
      rfl

/-- Nor is anything in a described statement. -/
theorem Statement.isConnection_of_mem {s : Statement}
    (h : problem ∈ (s.draft false).problems) : problem.1.isConnection = false := by
  rw [Draft.problems, Reading.ofDraft_statement] at h
  obtain ⟨demand, _, hmem⟩ := List.mem_flatMap.mp h
  exact demand.isConnection_of_mem hmem

/-- No problem that a lenient builder passes over is a failed connection. -/
theorem Call.isConnection_of_mem_problems {c : Call}
    (h : problem ∈ (c.draft false).problems) : problem.1.isConnection = false := by
  cases c with
  | integer v => exact Demand.isConnection_of_mem (.integer, v) h
  | float precision v => exact Demand.isConnection_of_mem (.float precision, v) h
  | string v => exact Demand.isConnection_of_mem (.string, v) h
  | set v => exact Demand.isConnection_of_mem (.set, v) h
  | assignments v => exact Demand.isConnection_of_mem (.fields, v) h
  | raw v => exact Demand.isConnection_of_mem (.raw, v) h
  | name s => exact Demand.isConnection_of_mem (.ofName s) h
  | typed type precision v => exact Literal.isConnection_of_mem_typed h
  | tagged tag precision v => exact Literal.isConnection_of_mem_tagged h
  | substitute template args =>
    rw [draft, Template.problems_draft] at h
    rcases List.mem_append.mp h with h | h
    · obtain ⟨demand, _, hmem⟩ := List.mem_flatMap.mp h
      exact demand.isConnection_of_mem hmem
    · split at h
      · rw [List.mem_singleton.mp h]
        rfl
      · cases h
  | insert table fields => exact Statement.isConnection_of_mem (s := .insert table fields) h
  | update table fields conditions =>
    exact Statement.isConnection_of_mem (s := .update table fields conditions) h
  | delete table conditions => exact Statement.isConnection_of_mem (s := .delete table conditions) h
  | select query => exact Statement.isConnection_of_mem (s := .select query) h
  | build statement => exact Statement.isConnection_of_mem h

end Connections

end SqlText
