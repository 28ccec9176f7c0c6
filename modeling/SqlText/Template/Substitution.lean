import SqlText.Builder
import SqlText.Template.Token

/-!
# Substitution

Every marker of a template takes the next argument, and the argument's draft stands
in its place; what an argument contains is never read as a template again. Running
out of arguments is one problem, at the first marker that has none. Arguments left
over are a problem for a strict builder only, and the last one.
-/

namespace SqlText

namespace Template

/-- The problem of a template and a list of arguments that differ in number. -/
def countProblem (template : String) (given : Nat) : Piece :=
  .problem (.argumentCount (placeholderCount template) given) (some template)

/-- The draft of tokens and the arguments that are left for them. Markers after the
last argument are neutral; `missing` comes before the first of them. -/
def fill (strict : Bool) (missing surplus : Draft) : List Token → List Value → Draft
  | [], [] => []
  | [], _ :: _ => surplus
  | .literal text :: rest, args => .fixed text :: fill strict missing surplus rest args
  | .marker kind :: rest, arg :: args =>
    Literal.argument strict kind arg ++ fill strict missing surplus rest args
  | .marker kind :: rest, [] =>
    missing ++ Literal.neutral kind ++ fill strict [] surplus rest []

/-- The draft of a template with its arguments. -/
def draft (strict : Bool) (template : String) (args : List Value) : Draft :=
  let problem := countProblem template args.length
  fill strict [problem] (if strict then [problem] else []) (tokens template) args

end Template

/-- The text of a template with its arguments in place. -/
def Builder.substitute (b : Builder) (template : String) (args : List Value) :
    Outcome String :=
  b.finish .substituted (Template.draft b.strict template args)

end SqlText
