import RecordQuery.Document
import RecordQuery.Error
import RecordQuery.Target

/-! Why a criterion, a sort directive or a scope is refused, and the wording of each cause. -/

namespace RecordQuery

/-- What makes an input unfit to be a criterion. -/
inductive Unfit where
  | repeatedKey (key : String)
  | fieldHolding (key : String) (kind : Document.Kind)
  | argumentHolding (kind : Document.Kind)
  | arrayStartingWith (kind : Document.Kind)
  | emptyArray
  | document (kind : Document.Kind)
  deriving DecidableEq

def Unfit.message : Unfit → String
  | repeatedKey key => "field map with duplicate key " ++ Text.shown key
  | fieldHolding key kind => "field " ++ Text.shown key ++ " holding " ++ kind.name
  | argumentHolding kind => "format argument holding " ++ kind.name
  | arrayStartingWith kind => "array starting with " ++ kind.name
  | emptyArray => "empty array"
  | document kind => kind.name

inductive ScopeError where
  | format (error : FormatError)
  | unfit (input : Unfit)
  | invalidSortField (field : String)
  | invalidFieldPath (path : String)
  | noCurrentContext
  | unknownTarget (target : Target)
  deriving DecidableEq

def ScopeError.message : ScopeError → String
  | format error => "predicate syntax error: " ++ error.message
  | unfit input => "unsupported criterion input: " ++ input.message
  | invalidSortField field => "invalid sort field: " ++ Text.shown field
  | invalidFieldPath path => "invalid field path: " ++ Text.shown path
  | noCurrentContext => "no current execution context registered"
  | unknownTarget target => "unknown target: " ++ target.name

end RecordQuery
