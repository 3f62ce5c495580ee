import RecordQuery.Predicate.Reader

/-! Parse trees: what the grammar finds in a predicate format before a predicate is made of it. A
tree names the rule that found it and holds the trees of its parts; a leaf keeps the text of a rule
whose text is read later on. The parts of a chain are its operands with the connectives between
them. -/

namespace RecordQuery

open Text (skipBlank length_skipBlank_le)

/-- The rules that leave a tree. -/
inductive Rule where
  | chain (kind : Connective)
  | connective (kind : Connective)
  | negation
  | not
  | group
  | constant (value : Bool)
  | comparison
  | operator
  | symbol (op : Operator)
  | modifier
  | flags
  | placeholder (p : Placeholder)
  | nil
  | bool (b : Bool)
  | integer
  | float
  | quoted (closing : Char)
  | quotedText (closing : Char)
  | path
  | endOfText
  deriving DecidableEq

inductive ParseTree where
  | node (rule : Rule) (parts : List ParseTree)
  | leaf (rule : Rule) (text : List Char)

namespace ParseTree

def rule : ParseTree → Rule
  | node r _ | leaf r _ => r

def parts : ParseTree → List ParseTree
  | node _ ts => ts
  | leaf _ _ => []

def text : ParseTree → List Char
  | node _ _ => []
  | leaf _ s => s

theorem sizeOf_parts_lt (t : ParseTree) : sizeOf t.parts < sizeOf t := by
  cases t with
  | node r ts =>
    simp only [parts, node.sizeOf_spec]
    omega
  | leaf r s =>
    have hs : 0 < sizeOf s := by
      cases s with
      | nil => simp
      | cons c s => rw [List.cons.sizeOf_spec]; omega
    simp only [parts, leaf.sizeOf_spec, List.nil.sizeOf_spec]
    omega

theorem sizeOf_tail_lt (t : ParseTree) (ts : List ParseTree) : sizeOf ts < sizeOf (t :: ts) := by
  rw [List.cons.sizeOf_spec]
  omega

theorem sizeOf_lt_of_mem_parts {t part : ParseTree} (h : part ∈ t.parts) : sizeOf part < sizeOf t :=
  Nat.lt_trans (List.sizeOf_lt_of_mem h) (sizeOf_parts_lt t)

/-! ### Operands and operators -/

def literalRules : List (String × Rule) :=
  [("nil", .nil), ("null", .nil), ("true", .bool true), ("yes", .bool true),
    ("false", .bool false), ("no", .bool false)]

def scanNumber : Scan ParseTree := fun s =>
  (scanNumeral s).map fun (n, rest) =>
    (leaf (if n.fraction.isEmpty then .integer else .float) (s.take (s.length - rest.length)), rest)

/-- What stands in quotes, with its backslashes. -/
def scanEscaped (closing : Char) : List Char → Option (List Char × List Char)
  | [] => none
  | ['\\'] => none
  | '\\' :: c :: s => (scanEscaped closing s).map (Prod.map (['\\', c] ++ ·) id)
  | c :: s =>
    if c = closing then some ([], s) else (scanEscaped closing s).map (Prod.map (c :: ·) id)

def scanQuoted (closing : Char) : Scan ParseTree := fun s =>
  (scanEscaped closing s).map
    (Prod.map (fun found => node (.quoted closing) [leaf (.quotedText closing) found]) id)

def scanOperand : Scan ParseTree := fun s =>
  match s with
  | '%' :: '@' :: s => some (node (.placeholder .value) [], s)
  | '%' :: 'K' :: s => some (node (.placeholder .key) [], s)
  | '"' :: s => scanQuoted '"' s
  | '\'' :: s => scanQuoted '\'' s
  | s =>
    (scanWord literalRules s).map (Prod.map (node · []) id)
      <|> scanNumber s
      <|> (scanPath s).map (Prod.map (leaf .path) id)

def modifierTree (flags : List Char) : ParseTree := node .modifier [leaf .flags flags]

def scanOperator : Scan ParseTree := fun s => do
  let (op, s) ← scanSymbol s <|> scanWord operatorWords s
  let (flags, s) := scanModifier s
  return (node .operator (node (.symbol op) [] :: (flags.map modifierTree).toList), s)

/-! ### Predicates -/

def scanComparison : Scan ParseTree := fun s => do
  let (left, s) ← scanOperand s
  let (op, s) ← scanOperator (skipBlank s)
  let (right, s) ← scanOperand (skipBlank s)
  return (node .comparison [left, op, right], s)

def scanGroup (inner : Scan ParseTree) : Scan ParseTree
  | '(' :: s => do
    let (found, s) ← inner (skipBlank s)
    match skipBlank s with
    | ')' :: s => return (node .group [found], s)
    | _ => none
  | _ => none

def scanPrimary (inner : Scan ParseTree) : Scan ParseTree := fun s =>
  scanGroup inner s
    <|> (scanWord Predicate.constantWords s).map
      (Prod.map (fun value => node (.constant value) []) id)
    <|> scanComparison s

def scanNegation (inner : Scan ParseTree) (s : List Char) : Option (ParseTree × List Char) :=
  match _h : afterNot s with
  | none => (scanPrimary inner s).map (Prod.map (fun found => node .negation [found]) id)
  | some r =>
    match scanNegation inner (skipBlank r) with
    | some (found, rest) => some (node .negation [node .not [], found], rest)
    | none => (scanPrimary inner s).map (Prod.map (fun found => node .negation [found]) id)
termination_by s.length
decreasing_by exact Nat.lt_of_le_of_lt (length_skipBlank_le _) (length_afterNot ‹_›)

def chainTree (kind : Connective) (operands : List ParseTree) : ParseTree :=
  node (.chain kind) (operands.intersperse (node (.connective kind) []))

def scanChain (kind : Connective) (sign : List Char → Option (List Char)) (item : Scan ParseTree) :
    Scan ParseTree := fun s =>
  (Text.scanChain sign item s).map (Prod.map (chainTree kind) id)

/-- The tree of a whole predicate at the front of a text. -/
def scan (s : List Char) : Option (ParseTree × List Char) :=
  let inner (r : List Char) := if r.length < s.length then scan r else none
  scanChain .or afterOr (scanChain .and afterAnd (scanNegation inner)) s
termination_by s.length

/-- The trees of a whole format, if it is a sentence of the language. -/
def ofFormat (format : String) : Option (List ParseTree) :=
  match scan (skipBlank format.toList) with
  | some (found, rest) => if skipBlank rest = [] then some [found, node .endOfText []] else none
  | none => none

end ParseTree

end RecordQuery
