import RecordQuery.Text.Shown
import RecordQuery.Value.Basic

/-! Why a predicate format, a key path or an argument is refused, and the wording of each cause. -/

namespace RecordQuery

inductive FormatError where
  /-- The text is not a sentence of the predicate language. -/
  | malformed
  | unsupportedModifier (flags : String)
  | invalidKeyPath (path : String)
  | placeholderCount (expected found : Nat)
  | keyPathArgument (kind : Value.Kind)
  | nonFiniteNumber (number : Binary64)
  deriving DecidableEq

namespace FormatError

def message : FormatError → String
  | malformed => "Syntax error"
  | unsupportedModifier flags =>
    "Invalid predicate: unsupported comparison modifier [" ++ flags ++ "]"
  | invalidKeyPath path => "Invalid key path: " ++ Text.shown path
  | placeholderCount expected found =>
    "Placeholder count mismatch: expected " ++ toString expected ++ ", found " ++ toString found
  | keyPathArgument kind => "%K argument must be a string naming a key path, got " ++ kind.name
  | nonFiniteNumber number =>
    "Non-finite number " ++ number.text ++ " has no literal form"

end FormatError

end RecordQuery
