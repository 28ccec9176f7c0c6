import SqlText.Proofs.Misfits

/-!
# What a strict builder accepts

A strict builder with the rules of MySQL writes a call exactly when it takes every value for
what is asked of it; the first value in the text that it does not take gives the error. Of a
template the values come before the count: that there are too many or too few arguments is
found only where all that have a marker are taken.
-/

namespace SqlText

namespace Demand

/-- A strict builder takes the value for what is asked of it. -/
def Accepted (demand : Demand) : Prop := demand.1.Accepts demand.2

/-- What a strict builder answers if it does not. -/
def refusal (demand : Demand) : Error := demand.1.refusal demand.2

/-- The problems that a strict builder finds in demands, in order. -/
def strictProblems (demands : List Demand) : List Problem :=
  demands.flatMap (Reading.problems.ofDemand true)

/-- In demands that are accepted there are no problems, and in no others. -/
theorem strictProblems_eq_nil_iff {demands : List Demand} :
    strictProblems demands = [] ↔ ∀ demand ∈ demands, demand.Accepted := by
  rw [strictProblems, List.flatMap_eq_nil_iff]
  refine forall₂_congr fun demand _ => ?_
  have hdecides := demand.1.decides demand.2
  constructor
  · intro hnone
    by_contra hrefused
    obtain ⟨rest, hproblems⟩ := hdecides.refuses hrefused
    have hsome : Reading.problems.ofDemand true demand = (demand.refusal, none) :: rest := hproblems
    rw [hnone] at hsome
    cases hsome
  · exact hdecides.accepts

/-- The first demand that is not accepted gives the first problem. -/
theorem strictProblems_first {before : List Demand} {demand : Demand}
    (hbefore : ∀ earlier ∈ before, earlier.Accepted) (hrefused : ¬demand.Accepted)
    (after : List Demand) : ∃ rest,
      strictProblems (before ++ demand :: after) = (demand.refusal, none) :: rest := by
  obtain ⟨rest, hproblems⟩ := (demand.1.decides demand.2).refuses hrefused
  have hfirst : Reading.problems.ofDemand true demand = (demand.refusal, none) :: rest := hproblems
  have hclean : strictProblems before = [] := strictProblems_eq_nil_iff.mpr hbefore
  refine ⟨rest ++ strictProblems after, ?_⟩
  rw [strictProblems, List.flatMap_append, List.flatMap_cons, hfirst]
  exact congrArg (· ++ _) hclean

end Demand

namespace Builder

variable {d : Draft} {demands : List Demand} {later : List Problem}

/-- A draft is written when all its demands are accepted and nothing is wrong after them. -/
theorem exists_writes_iff_accepted (hd : d.problems = Demand.strictProblems demands ++ later) :
    (∃ sql, (⟨.mysql, true⟩ : Builder).Writes d sql) ↔
      (∀ demand ∈ demands, demand.Accepted) ∧ later = [] := by
  rw [exists_writes_iff, hd, List.append_eq_nil_iff, Demand.strictProblems_eq_nil_iff]

/-- The first demand that is not accepted is what the builder returns, whatever comes later. -/
theorem result_of_first_refused (hd : d.problems = Demand.strictProblems demands ++ later)
    {before after : List Demand} {demand : Demand} (hsplit : demands = before ++ demand :: after)
    (hbefore : ∀ earlier ∈ before, earlier.Accepted) (hrefused : ¬demand.Accepted) :
    ((⟨.mysql, true⟩ : Builder).perform d).result = .error demand.refusal := by
  obtain ⟨rest, hproblems⟩ := Demand.strictProblems_first hbefore hrefused after
  rw [hsplit, hproblems] at hd
  exact result_of_problems hd

end Builder

namespace Template

/-- A template has the problems of its arguments, then its own count. -/
theorem problems_draft_strict (template : String) (args : List Value) :
    (draft true template args).problems = Demand.strictProblems (demands template args) ++
      if args.length = placeholderCount template then []
      else [(.argumentCount (placeholderCount template) args.length, some template)] := by
  rw [Draft.problems, draft, Reading.ofDraft_fill, ← placeholderCount_eq]
  refine congrArg (Demand.strictProblems (demands template args) ++ ·) ?_
  by_cases hcount : args.length = placeholderCount template
  · simp [hcount]
  · rw [if_neg hcount]
    by_cases hfew : args.length < placeholderCount template
    · rw [if_pos hfew]
      rfl
    · rw [if_neg hfew, if_pos (by omega)]
      rfl

end Template

/-- A strict builder with the rules of MySQL substitutes exactly the templates that have as many
arguments as markers and an acceptable argument at every marker. Otherwise it returns what is
wrong with the leftmost argument that it does not take, even when the count is wrong too, and
the count only where it takes every argument that has a marker. -/
theorem Builder.substitute_accepts_exactly (template : String) (args : List Value) :
    let result := ((⟨.mysql, true⟩ : Builder).substitute template args).result
    let demands := Template.demands template args
    let count := Template.placeholderCount template
    ((∃ sql, result = .ok sql) ↔
      args.length = count ∧ ∀ demand ∈ demands, demand.Accepted) ∧
    (∀ before demand after, demands = before ++ demand :: after →
      (∀ earlier ∈ before, earlier.Accepted) → ¬demand.Accepted →
        result = .error demand.refusal) ∧
    ((∀ demand ∈ demands, demand.Accepted) → args.length ≠ count →
      result = .error (.argumentCount count args.length)) := by
  intro result demands count
  have hproblems := Template.problems_draft_strict template args
  have hresult : result =
      ((⟨.mysql, true⟩ : Builder).perform (Template.draft true template args)).result :=
    result_finish _ _ _
  rw [hresult]
  refine ⟨?_, fun before demand after hsplit hbefore hrefused => ?_, fun haccepted hcount => ?_⟩
  · refine (exists_writes_iff_accepted hproblems).trans ?_
    rw [and_comm]
    simp [demands, count]
  · exact result_of_first_refused hproblems hsplit hbefore hrefused
  · rw [if_neg hcount, Demand.strictProblems_eq_nil_iff.mpr haccepted] at hproblems
    exact result_of_problems hproblems

/-- The first item that does not fit comes before a missing argument, and a missing argument
after all that there are. -/
theorem Builder.substitute_accepts_exactly_nested :
    ((⟨.mysql, true⟩ : Builder).substitute "?i ?a ?s"
      [.str " 12 ", .list [.null, .list [], .map []]]).result =
        .error (.typeMismatch "string" "list") ∧
    ((⟨.mysql, true⟩ : Builder).substitute "?i ?s" [.str " 12 "]).result =
      .error (.argumentCount 2 1) := by
  have hkinds : Template.kinds (Template.tokens "?i ?a ?s") = [.integer, .set, .string] := by
    decide +kernel
  have hkinds' : Template.kinds (Template.tokens "?i ?s") = [.integer, .string] := by
    decide +kernel
  have hinteger : Value.CountsAsInteger (.str " 12 ") :=
    (Literal.countsAsInteger_iff _).mpr (by decide +kernel)
  have haccepted : ∀ demand ∈ [(Placeholder.integer, Value.str " 12 ")],
      Demand.Accepted demand := List.forall_mem_singleton.mpr hinteger
  constructor
  · refine (substitute_accepts_exactly _ _).2.1 [(.integer, .str " 12 ")]
      (.set, .list [.null, .list [], .map []]) [] ?_ haccepted ?_
    · rw [Template.demands, hkinds]
      rfl
    · intro hflat
      cases hflat (.list []) (by simp)
  · have hcount : Template.placeholderCount "?i ?s" = 2 := by
      rw [Template.placeholderCount_eq, hkinds']
      rfl
    have h := (substitute_accepts_exactly "?i ?s" [.str " 12 "]).2.2
    rw [Template.demands, hkinds', hcount] at h
    exact h haccepted (by decide)

/-- A described statement has the problems of its demands. -/
theorem Statement.problems_draft_strict (s : Statement) :
    (s.draft true).problems = Demand.strictProblems s.demands ++ [] :=
  (Reading.problems.ofDraft_statement s).trans (List.append_nil _).symm

end SqlText
