import SqlText.Proofs.Carrying
import SqlText.Statement.Assembly
import SqlText.Template.Substitution

/-!
# Calls of a builder

Every text that a builder gives comes from one of fifteen operations. All of them
perform a draft, except that an INSERT or an UPDATE with nothing to set is refused
before anything is drafted. A law about drafts is therefore a law about calls.
-/

namespace SqlText

/-- An operation of a builder and its input. -/
inductive Call where
  /-- An integer literal. -/
  | integer (v : Value)
  /-- A literal with fixed decimals. -/
  | float (precision : UInt32) (v : Value)
  /-- A quoted string literal. -/
  | string (v : Value)
  /-- A parenthesized list of strings. -/
  | set (v : Value)
  /-- Assignments of strings to columns. -/
  | assignments (v : Value)
  /-- The bare text of a value. -/
  | raw (v : Value)
  /-- A quoted name. -/
  | name (s : String)
  /-- A value of a declared type. -/
  | typed (type : DeclaredType) (precision : UInt32) (v : Value)
  /-- A value whose declared type is given as a tag. -/
  | tagged (tag : String) (precision : UInt32) (v : Value)
  /-- A template with its arguments. -/
  | substitute (template : String) (args : List Value)
  /-- An INSERT. -/
  | insert (table : String) (fields : List Field)
  /-- An UPDATE. -/
  | update (table : String) (fields conditions : List Field)
  /-- A DELETE. -/
  | delete (table : String) (conditions : DeleteFilter)
  /-- A SELECT. -/
  | select (query : Query)
  /-- Any described statement. -/
  | build (statement : Statement)

/-- What the builder answers to a call. -/
def Builder.answer (b : Builder) : Call → Outcome String
  | .integer v => b.integer v
  | .float precision v => b.float precision v
  | .string v => b.string v
  | .set v => b.set v
  | .assignments v => b.fields v
  | .raw v => b.raw v
  | .name s => b.name s
  | .typed type precision v => b.typed type precision v
  | .tagged tag precision v => b.tagged tag precision v
  | .substitute template args => b.substitute template args
  | .insert table fields => b.insert table fields
  | .update table fields conditions => b.update table fields conditions
  | .delete table conditions => b.delete table conditions
  | .select query => b.select query
  | .build statement => b.build statement

/-- An INSERT or an UPDATE with nothing to set. -/
def Statement.setsNothing : Statement → Bool
  | .insert _ fields | .update _ fields _ => fields.isEmpty
  | .delete .. | .select _ => false

/-- The draft of a described statement. -/
def Statement.draft (strict : Bool) : Statement → Draft
  | .insert table fields => insertDraft strict table fields
  | .update table fields conditions => updateDraft strict table fields conditions
  | .delete table conditions => deleteDraft strict table conditions
  | .select query => query.draft strict

namespace Call

/-- The described statement of a call that gives one. -/
def statement? : Call → Option Statement
  | .insert table fields => some (.insert table fields)
  | .update table fields conditions => some (.update table fields conditions)
  | .delete table conditions => some (.delete table conditions)
  | .select query => some (.select query)
  | .build statement => some statement
  | _ => none

/-- The call is for an INSERT or an UPDATE with nothing to set. -/
def setsNothing (c : Call) : Bool := c.statement?.any Statement.setsNothing

/-- The draft that a call performs. -/
def draft (strict : Bool) : Call → Draft
  | .integer v => Literal.integer strict v
  | .float precision v => Literal.float strict precision v
  | .string v => Literal.string v
  | .set v => Literal.set strict v
  | .assignments v => Literal.fields strict v
  | .raw v => Literal.raw v
  | .name s => Literal.name s
  | .typed type precision v => Literal.typed strict type precision v
  | .tagged tag precision v => Literal.tagged strict tag precision v
  | .substitute template args => Template.draft strict template args
  | .insert table fields => insertDraft strict table fields
  | .update table fields conditions => updateDraft strict table fields conditions
  | .delete table conditions => deleteDraft strict table conditions
  | .select query => query.draft strict
  | .build statement => statement.draft strict

end Call

namespace Builder

/-- A statement with something to set finishes its draft. -/
theorem build_performs (b : Builder) {s : Statement} (h : s.setsNothing = false) :
    ∃ stage, b.build s = b.finish stage (s.draft b.strict) := by
  cases s with
  | insert table fields =>
    have hfields : ¬fields.isEmpty := by simpa [Statement.setsNothing] using h
    exact ⟨.insert, by simp only [build, insert, if_neg hfields, Statement.draft]⟩
  | update table fields conditions =>
    have hfields : ¬fields.isEmpty := by simpa [Statement.setsNothing] using h
    exact ⟨.update, by simp only [build, update, if_neg hfields, Statement.draft]⟩
  | delete table conditions => exact ⟨.delete, rfl⟩
  | select query => exact ⟨.select, rfl⟩

/-- A statement with nothing to set is refused, and nothing is reported. -/
theorem build_of_setsNothing (b : Builder) {s : Statement} (h : s.setsNothing = true) :
    ∃ message, b.build s = .fail (.validation message) := by
  cases s with
  | insert table fields => exact ⟨_, if_pos h⟩
  | update table fields conditions => exact ⟨_, if_pos h⟩
  | delete | select => simp [Statement.setsNothing] at h

/-- A call with something to set performs its draft. -/
theorem answer_performs (b : Builder) {c : Call} (h : c.setsNothing = false) :
    b.answer c = b.perform (c.draft b.strict) ∨
      ∃ stage, b.answer c = b.finish stage (c.draft b.strict) := by
  cases c with
  | insert table fields => exact .inr (b.build_performs (s := .insert table fields) h)
  | update table fields conditions =>
    exact .inr (b.build_performs (s := .update table fields conditions) h)
  | delete table conditions => exact .inr ⟨.delete, rfl⟩
  | select query => exact .inr ⟨.select, rfl⟩
  | build statement => exact .inr (b.build_performs (s := statement) h)
  | substitute template args => exact .inr ⟨.substituted, rfl⟩
  | _ => exact .inl rfl

/-- A call with nothing to set is refused, and nothing is reported. -/
theorem answer_of_setsNothing (b : Builder) {c : Call} (h : c.setsNothing = true) :
    ∃ message, b.answer c = .fail (.validation message) := by
  cases c with
  | insert table fields => exact b.build_of_setsNothing (s := .insert table fields) h
  | update table fields conditions =>
    exact b.build_of_setsNothing (s := .update table fields conditions) h
  | build statement => exact b.build_of_setsNothing (s := statement) h
  | _ => simp [Call.setsNothing, Call.statement?, Statement.setsNothing] at h

variable {b : Builder} {c : Call}

/-- A call with something to set has the text and the error of its draft. -/
theorem result_answer (h : c.setsNothing = false) :
    (b.answer c).result = (b.perform (c.draft b.strict)).result := by
  rcases b.answer_performs h with h | ⟨stage, h⟩
  · rw [h]
  · rw [h, result_finish]

/-- A call with something to set makes the reports of its draft. -/
theorem reports_answer (h : c.setsNothing = false) :
    (b.answer c).reports = (b.perform (c.draft b.strict)).reports := by
  rcases b.answer_performs h with h | ⟨stage, h⟩
  · rw [h]
  · rw [h, reports_finish]

end Builder

end SqlText
