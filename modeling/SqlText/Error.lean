/-!
# Errors and reports

A call fails for one of seven causes. Four of them are worth a report to whoever
watches the builder; the other three are only returned.
-/

namespace SqlText

/-- Why a call fails. -/
inductive Error where
  /-- A type tag that names no declared type. -/
  | unknownType (tag : String)
  /-- A template with more or fewer placeholders than there are arguments. -/
  | argumentCount (placeholders arguments : Nat)
  /-- A value that does not fit where it is used. -/
  | typeMismatch (expected found : String)
  /-- The database, or what escapes text for it, is out of reach. -/
  | connection (message : String)
  /-- A description that no statement can be made from. -/
  | validation (message : String)
  /-- Something that was looked for is not there. -/
  | notFound (message : String)
  /-- Settings that cannot be read. -/
  | config (message : String)
  deriving DecidableEq, Repr

/-- What a report is about. -/
inductive ReportKind where
  /-- A type tag that names no declared type. -/
  | unknownType
  /-- Too few or too many arguments. -/
  | argumentCount
  /-- A value that does not fit. -/
  | typeMismatch
  /-- The database or its escaping. -/
  | connection
  deriving DecidableEq, Repr

/-- The word for a kind of report. -/
def ReportKind.text : ReportKind → String
  | .unknownType => "unknown_placeholder_type"
  | .argumentCount => "argument_count_mismatch"
  | .typeMismatch => "type_mismatch"
  | .connection => "connection_error"

namespace Error

/-- The text of an error. -/
def message : Error → String
  | .unknownType tag => s!"unexpected variable type: {tag}"
  | .argumentCount placeholders arguments =>
    s!"argument count mismatch: template has {placeholders} placeholder(s), " ++
      s!"{arguments} argument(s) given"
  | .typeMismatch expected found => s!"type mismatch: expected {expected}, found {found}"
  | .connection message => s!"Connection error: {message}"
  | .validation message => s!"Validation error: {message}"
  | .notFound message => s!"Not found: {message}"
  | .config message => s!"Config error: {message}"

/-- The kind under which an error is reported, if it is. -/
def reportKind? : Error → Option ReportKind
  | .unknownType _ => some .unknownType
  | .argumentCount .. => some .argumentCount
  | .typeMismatch .. => some .typeMismatch
  | .connection _ => some .connection
  | .validation _ | .notFound _ | .config _ => none

/-- A value does not fit. -/
def isTypeMismatch : Error → Bool
  | .typeMismatch .. => true
  | _ => false

/-- There are too few or too many arguments. -/
def isArgumentCount : Error → Bool
  | .argumentCount .. => true
  | _ => false

/-- The database is out of reach. -/
def isConnection : Error → Bool
  | .connection _ => true
  | _ => false

/-- Something is not there. -/
def isNotFound : Error → Bool
  | .notFound _ => true
  | _ => false

end Error

/-- One message to whoever watches the builder. -/
structure Report where
  /-- What it is about. -/
  kind : ReportKind
  /-- The text of the error. -/
  message : String
  /-- The template or statement concerned, where there is one. -/
  sql : Option String
  deriving DecidableEq, Repr

/-- The report of an error; none for an error that is only returned. -/
def Report.ofError? (e : Error) (sql : Option String) : Option Report :=
  e.reportKind?.map fun kind => ⟨kind, e.message, sql⟩

end SqlText
