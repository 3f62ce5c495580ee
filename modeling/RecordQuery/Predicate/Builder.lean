import RecordQuery.Predicate.ParseTree

/-! Making predicates of parse trees. Nothing is taken for granted about a tree: every part that is
needed is looked for, every rule is checked where another one could stand, and each check has an
error of its own. Errors count from left to right, in a comparison with the operator between the
operands. -/

namespace RecordQuery

/-- Why no predicate is made of a format: a cause that a format can have, or a tree that is not of
the expected form. -/
inductive BuildError where
  | format (cause : FormatError)
  | emptyExpression
  | unexpectedRule (expected : String) (found : Rule)
  | invalidPredicate (reason : String)
  deriving DecidableEq

/-- The 64-bit integer that a text spells with digits, behind a sign or none. -/
def int64OfText? (text : List Char) : Option Int64 :=
  let (negative, s) := Numeral.scanSign text
  match Numeral.scanDigits s with
  | (c :: whole, []) =>
    int64? (Numeral.toInt { negative, whole := c :: whole, fraction := [], exponent := none })
  | _ => none

namespace ParseTree

/-! ### Operands and operators -/

def buildFloat (text : List Char) : Except BuildError Binary64 :=
  match Binary64.ofText? (String.ofList text) with
  | some x => .ok x
  | none =>
    let cause :=
      if text = [] then "cannot parse float from empty string" else "invalid float literal"
    .error (.invalidPredicate
      ("Failed to parse number " ++ String.ofList text ++ ": " ++ cause))

/-- What stands in quotes, with each backslash taken away that makes a character part of it. -/
def unescape : List Char → List Char
  | [] => []
  | ['\\'] => ['\\']
  | '\\' :: c :: s => Text.unescape c :: unescape s
  | c :: s => c :: unescape s

def buildOperand (t : ParseTree) : Except BuildError Operand :=
  match t.rule with
  | .placeholder p => .ok (.placeholder p)
  | .nil => .ok (.literal .nil)
  | .bool b => .ok (.literal (.bool b))
  | .integer =>
    match int64OfText? t.text with
    | some n => .ok (.literal (.integer n))
    | none => (.literal <| .float ·) <$> buildFloat t.text
  | .float => (.literal <| .float ·) <$> buildFloat t.text
  | .quoted _ =>
    let raw := (t.parts.head?.map text).getD []
    .ok (.literal (.string (String.ofList (unescape raw))))
  | .path => .path <$> (KeyPath.parse (String.ofList t.text)).mapError .format
  | found => .error (.unexpectedRule "operand" found)

def buildFoldCase : List ParseTree → Except BuildError Bool
  | [] => .ok false
  | modifier :: _ =>
    let flags := (modifier.parts.head?.map text).getD []
    if flags = ['c'] then .ok true
    else .error (.format (.unsupportedModifier (String.ofList flags)))

def buildOperator (t : ParseTree) : Except BuildError (Operator × Bool) :=
  match t.parts with
  | [] => .error (.invalidPredicate "empty operator")
  | sign :: modifiers =>
    match sign.rule with
    | .symbol op => (op, ·) <$> buildFoldCase modifiers
    | found => .error (.unexpectedRule "comparison operator" found)

/-! ### Predicates -/

/-- A part of a comparison that has to be there. -/
def part (t : ParseTree) (i : Nat) (name : String) : Except BuildError ParseTree :=
  match t.parts[i]? with
  | some found => .ok found
  | none => .error (.invalidPredicate ("missing " ++ name))

def buildComparison (t : ParseTree) : Except BuildError Predicate := do
  let left ← (← t.part 0 "left operand").buildOperand
  let (op, foldCase) ← (← t.part 1 "operator").buildOperator
  let right ← (← t.part 2 "right operand").buildOperand
  return .comparison left op right foldCase

/-- A chain of one operand is that operand, and there is none of no operand. -/
def joined (kind : Connective) : List Predicate → Except BuildError Predicate
  | [] => .error .emptyExpression
  | [p] => .ok p
  | ps => .ok (.compound kind ps)

mutual

def buildChain (kind : Connective) (t : ParseTree) : Except BuildError Predicate := do
  joined kind (← buildOperands kind t.parts)
termination_by sizeOf t
decreasing_by exact sizeOf_parts_lt t

/-- The operands of a chain: chains of AND for OR, and negations for AND. -/
def buildOperands (kind : Connective) : List ParseTree → Except BuildError (List Predicate)
  | [] => .ok []
  | t :: ts =>
    if t.rule = .connective kind then buildOperands kind ts
    else do
      let p ← match kind with
        | .or =>
          if t.rule = .chain .and then buildChain .and t
          else .error (.unexpectedRule "AndExpr" t.rule)
        | .and => buildNegation t
      return p :: (← buildOperands kind ts)
termination_by ts => sizeOf ts
decreasing_by
  · exact sizeOf_tail_lt t ts
  · exact sizeOf_tail_lt t ts
  · exact List.sizeOf_lt_of_mem (.head ts)
  · exact List.sizeOf_lt_of_mem (.head ts)

/-- A negation, or what stands in its place without a sign. -/
def buildNegation (t : ParseTree) : Except BuildError Predicate :=
  if t.rule = .negation then
    match _h : t.parts with
    | [] => .error .emptyExpression
    | first :: rest =>
      match first.rule with
      | .not =>
        match rest with
        | [] => .error (.invalidPredicate "NOT without operand")
        | negated :: _ => .not <$> buildNegation negated
      | .group =>
        match _hgroup : first.parts with
        | [] => .error .emptyExpression
        | inner :: _ => buildChain .or inner
      | .constant value => .ok (.constant value)
      | .comparison => buildComparison first
      | found => .error (.unexpectedRule "NOT, parenthesized expression or comparison" found)
  else .error (.unexpectedRule "NotExpr" t.rule)
termination_by sizeOf t
decreasing_by
  · apply sizeOf_lt_of_mem_parts
    rw [_h]
    exact .tail _ (.head _)
  · have hfirst : first ∈ t.parts := _h ▸ List.mem_cons_self
    have hinner : inner ∈ first.parts := _hgroup ▸ List.mem_cons_self
    exact Nat.lt_trans (sizeOf_lt_of_mem_parts hinner) (sizeOf_lt_of_mem_parts hfirst)

end

/-- The predicate of a whole format: the first of its trees has to be a chain of OR. -/
def build : List ParseTree → Except BuildError Predicate
  | [] => .error .emptyExpression
  | t :: _ =>
    if t.rule = .chain .or then buildChain .or t
    else .error (.unexpectedRule "OrExpr" t.rule)

end ParseTree

/-- Read a predicate format by way of its parse trees. -/
def Predicate.parseChecked (format : String) : Except BuildError Predicate :=
  match ParseTree.ofFormat format with
  | none => .error (.format .malformed)
  | some trees => ParseTree.build trees

end RecordQuery
