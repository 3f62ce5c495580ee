import RecordQuery.Criterion.Input
import RecordQuery.Criterion.Printer
import RecordQuery.Session

/-! Scopes: immutable selections over the records of one target in one context. Filtering narrows a
scope by another criterion and sorting appends a directive that breaks the ties of those before it;
the current context is asked for only when a scope is made without one. -/

namespace RecordQuery

structure Scope where
  target : Target
  criterion : Option Criterion
  directives : List SortDirective
  context : ContextId

namespace Scope

variable {α : Type}

def withContext (target : Target) (context : ContextId) : Scope :=
  { target, criterion := none, directives := [], context }

/-- All records of a target, in the current context. -/
def new (session : Session α) (target : Target) : Except ScopeError Scope :=
  withContext target <$> session.currentContext

/-- A scope put together from its parts: the criterion is checked first, then the directives, then
the current context is asked for unless another is given. -/
def ofParts (session : Session α) (target : Target) (criterion : Option Criterion)
    (directives : List SortDirective) (context : Option ContextId) : Except ScopeError Scope := do
  if let some c := criterion then c.validate
  let directives ← directives.mapM SortDirective.checked
  let context ← match context with
    | some context => pure context
    | none => session.currentContext
  return { target, criterion, directives, context }

/-- The scope narrowed by what an input stands for. -/
def filter (scope : Scope) (input : CriterionInput) : Except ScopeError Scope := do
  let incoming ← input.normalize
  return { scope with criterion := Criterion.combine scope.criterion incoming }

/-- The scope with one more directive, which is checked before. -/
def sortBy (scope : Scope) (directive : SortDirective) : Except ScopeError Scope := do
  let directive ← directive.checked
  return { scope with directives := scope.directives ++ [directive] }

/-- The scope with one more directive for a field that is given by name. -/
def sortByName (scope : Scope) (field : String) (ascending : Bool) : Except ScopeError Scope := do
  let directive ← SortDirective.named field ascending
  return { scope with directives := scope.directives ++ [directive] }

/-- The criterion of the scope as an input for another. -/
def input (scope : Scope) : CriterionInput := .scope scope.criterion

/-- The canonical text of the criterion, if there is one. -/
def format (scope : Scope) : Option String := scope.criterion.map Criterion.text

/-- The records the scope selects, from the collection that is registered for its target now. -/
def evaluate [Record α] (scope : Scope) (session : Session α) :
    Except ScopeError (RecordSet α × Session α) :=
  match session.backing? scope.context scope.target with
  | none => .error (.unknownTarget scope.target)
  | some backing =>
    .ok (backing.materialize session.nextIdentity scope.criterion scope.directives,
      { session with nextIdentity := session.nextIdentity + 1 })

/-- Target, criterion and directives as a query. -/
def text (scope : Scope) : String :=
  scope.target.name ++ ((scope.format.map (" WHERE " ++ ·)).getD "")
    ++ (if scope.directives.isEmpty then "" else
      " ORDER BY " ++ ", ".intercalate (scope.directives.map SortDirective.text))

/-- All parts of a scope by name, but for its context, as diagnostics show them. -/
def shown (scope : Scope) : String :=
  let criterion := match scope.criterion with
    | some c => "Some(" ++ c.shown ++ ")"
    | none => "None"
  "Scope \x7b target: " ++ scope.target.shown ++ ", criterion: " ++ criterion
    ++ ", sort_directives: [" ++ ", ".intercalate (scope.directives.map SortDirective.shown)
    ++ "], .. \x7d"

end Scope

end RecordQuery
