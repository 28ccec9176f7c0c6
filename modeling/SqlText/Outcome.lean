import SqlText.Error

/-!
# Outcomes

A call returns a value or an error, and on the way it gives notice of problems and
of finished texts. An outcome keeps both: the notices in the order in which they
were given, and the result. Notices given before a failure stay given.
-/

namespace SqlText

/-- A text that has been finished or is about to be run. -/
inductive Stage where
  /-- A template with its arguments in place. -/
  | substituted
  /-- A complete INSERT statement. -/
  | insert
  /-- A complete UPDATE statement. -/
  | update
  /-- A complete DELETE statement. -/
  | delete
  /-- A complete SELECT statement. -/
  | select
  /-- A statement that will be asked for rows. -/
  | query
  /-- A statement that will be asked for the number of rows it changed. -/
  | execute
  deriving DecidableEq, Repr

/-- What a call gives notice of. -/
inductive Notice where
  /-- A problem. -/
  | problem (report : Report)
  /-- A text that reached a stage. -/
  | reached (stage : Stage) (sql : String)
  deriving DecidableEq, Repr

/-- The report in a notice of a problem. -/
def Notice.report? : Notice → Option Report
  | .problem report => some report
  | .reached .. => none

/-- The notices of a call, in order, and its result. -/
structure Outcome (α : Type) where
  /-- What was given notice of, the earliest first. -/
  notices : List Notice
  /-- The value or the error. -/
  result : Except Error α

namespace Outcome

/-- The reports among the notices. -/
def reports {α : Type} (o : Outcome α) : List Report :=
  o.notices.filterMap Notice.report?

/-- The outcome after earlier notices. -/
def after {α : Type} (earlier : List Notice) (o : Outcome α) : Outcome α :=
  ⟨earlier ++ o.notices, o.result⟩

/-- A failure without a notice. -/
def fail {α : Type} (e : Error) : Outcome α := ⟨[], .error e⟩

/-- The notice of an error; none for an error that is only returned. -/
def noticeOf (e : Error) (sql : Option String) : List Notice :=
  (Report.ofError? e sql).toList.map .problem

/-- A failure whose error is reported. -/
def failReported {α : Type} (e : Error) (sql : Option String) : Outcome α :=
  ⟨noticeOf e sql, .error e⟩

/-- One more text before the texts of an outcome. -/
def before (text : String) (o : Outcome (List String)) : Outcome (List String) :=
  ⟨o.notices, o.result.map (text :: ·)⟩

/-- Goes on with a value; the later notices follow the earlier ones. -/
def andThen {α β : Type} (o : Outcome α) (f : α → Outcome β) : Outcome β :=
  match o.result with
  | .ok a => (f a).after o.notices
  | .error e => ⟨o.notices, .error e⟩

instance : Monad Outcome where
  pure a := ⟨[], .ok a⟩
  bind := andThen

/-- Gives notice that a text has reached a stage. -/
def reached (stage : Stage) (sql : String) : Outcome Unit :=
  ⟨[.reached stage sql], .ok ()⟩

end Outcome

end SqlText
