import RecordQuery.Decimal.Scaled
import RecordQuery.Json.Basic

/-! Taking JSON apart as structures, variants and lists. `room` is how many objects and arrays may
still be entered, one inside the other; reading stops where it is used up. -/

namespace RecordQuery.Json

def text? : Json → Option String
  | string spelling => unspell? spelling
  | _ => none

def bool? : Json → Option Bool
  | bool b => some b
  | _ => none

/-- A 64-bit integer written without fraction and exponent; a negative zero is no integer. -/
def integer? : Json → Option Int64
  | number n => if n.isInteger && !(n.negative && n.toInt == 0) then int64? n.toInt else none
  | _ => none

/-- The double that a number of either kind is read as, unless it is past the finite ones. -/
def float? : Json → Option Binary64
  | number n => n.scaled?
  | _ => none

def items? (room : Nat) : Json → Option (List Json)
  | array items => if room = 0 then none else some items
  | _ => none

/-- The variant of a sum and its content: an object of one field, or a bare name for a variant
whose content is null. -/
def variant? (room : Nat) : Json → Option (String × Json)
  | string spelling => (unspell? spelling).map (·, null)
  | object [(tag, content)] => if room = 0 then none else (unspell? tag).map (·, content)
  | _ => none

/-- The fields of a structure in the order of `names`: from an object with each of them exactly
once among any others, or from an array of just as many items. -/
def members? (room : Nat) (names : List String) (j : Json) : Option (List Json) :=
  if room = 0 then none
  else match j with
    | array items => if items.length = names.length then some items else none
    | object fields => do
      let fields ← fields.mapM fun (name, j) => (unspell? name).map (·, j)
      names.mapM fun name =>
        match fields.filter (·.1 = name) with
        | [(_, j)] => some j
        | _ => none
    | _ => none

end RecordQuery.Json
