import RecordQuery.Proofs.Evaluation
import RecordQuery.Record

/-! Laws of the comparison operators. The six that follow the comparison of values are determined by
it, so each is its converse with the sides exchanged, and exactly one of less, equal and greater
holds of two values that compare; of values that do not, none holds. The other three are about
strings only. A predicate may therefore be written with any comparison turned round: where a side
leads to no value the comparison is false either way. -/

namespace RecordQuery

namespace Value

/-- The members of the numeric family that are numbers. -/
inductive IsNumber : Value → Prop
  | bool (b : Bool) : IsNumber (.bool b)
  | integer (n : Int64) : IsNumber (.integer n)
  | float {x : Binary64} : x.isNaN = false → IsNumber (.float x)

/-- Two values of which one is less or both are equal: nothing and nothing, two strings, or two
numbers of whatever kinds. -/
inductive Comparable : Value → Value → Prop
  | nil : Comparable .nil .nil
  | strings (s t : String) : Comparable (.string s) (.string t)
  | numbers {a b : Value} : a.IsNumber → b.IsNumber → Comparable a b

variable {a b : Value}

theorem isSome_compare_of_comparable (h : Comparable a b) : (a.compare b).isSome = true := by
  have hdoubles {x y : Binary64} (hx : x.isNaN = false) (hy : y.isNaN = false) :
      (x.compare y).isSome = true := by
    rw [Binary64.compare_eq_some hx hy]
    rfl
  cases h with
  | nil => rfl
  | strings s t => rfl
  | numbers ha hb =>
    cases ha with
    | bool | integer =>
      cases hb with
      | bool | integer => rfl
      | float hy => exact hdoubles (Binary64.isNaN_ofInt _) hy
    | float hx =>
      cases hb with
      | bool | integer => exact hdoubles hx (Binary64.isNaN_ofInt _)
      | float hy => exact hdoubles hx hy

/-- What compares with something, and is neither nil nor a string, is a number. -/
theorem isNumber_of_compare (h : (a.compare b).isSome = true) (hnil : a ≠ nil)
    (hstring : a.kind ≠ .string) : a.IsNumber := by
  cases a with
  | nil => exact absurd rfl hnil
  | string s => exact absurd rfl hstring
  | bool b => exact .bool b
  | integer n => exact .integer n
  | float x =>
    refine .float ?_
    by_contra hnan
    rw [Bool.not_eq_false] at hnan
    cases b <;> simp [compare, int?, double?, Binary64.compare, hnan] at h

theorem comparable_of_isSome_compare (h : (a.compare b).isSome = true) : Comparable a b := by
  have hswap : (b.compare a).isSome = true := by
    rw [compare_swap a b, Option.isSome_map]
    exact h
  cases a with
  | nil =>
    cases b with
    | nil => exact .nil
    | bool | integer | float | string => exact absurd h (by simp [compare, int?, double?])
  | string s =>
    cases b with
    | string t => exact .strings s t
    | nil | bool | integer | float => exact absurd h (by simp [compare, int?, double?])
  | bool | integer | float =>
    refine .numbers (isNumber_of_compare h (by simp) (by simp [kind])) ?_
    refine isNumber_of_compare hswap ?_ ?_
    · rintro rfl
      exact absurd h (by simp [compare, int?, double?])
    · cases b with
      | string t => exact absurd h (by simp [compare, int?, double?])
      | nil | bool | integer | float => simp [kind]

/-- The values that compare, whatever their kinds. -/
theorem isSome_compare_iff : (a.compare b).isSome = true ↔ Comparable a b :=
  ⟨comparable_of_isSome_compare, isSome_compare_of_comparable⟩

/-- A value as an operator sees it. -/
def folded (foldCase : Bool) (v : Value) : Value := if foldCase then v.lower else v

theorem kind_folded (foldCase : Bool) (v : Value) : (v.folded foldCase).kind = v.kind := by
  cases foldCase with
  | false => rfl
  | true => exact kind_lower v

/-- Folding case may change how two strings compare, but nothing of what compares. -/
theorem isSome_compare_folded (foldCase : Bool) (a b : Value) :
    ((a.folded foldCase).compare (b.folded foldCase)).isSome = (a.compare b).isSome := by
  cases foldCase with
  | false => rfl
  | true => cases a <;> cases b <;> rfl

end Value

namespace Operator

variable (foldCase : Bool) (l r : Value)

theorem holds_eq (op : Operator) :
    op.holds foldCase l r = op.relates (l.folded foldCase) (r.folded foldCase) := by
  cases foldCase <;> rfl

/-! ### Order -/

theorem notEqual_holds : notEqual.holds foldCase l r = !equal.holds foldCase l r := by
  rw [holds_eq, holds_eq]
  rfl

theorem lessOrEqual_holds : lessOrEqual.holds foldCase l r =
    (less.holds foldCase l r || equal.holds foldCase l r) := by
  rw [holds_eq, holds_eq, holds_eq]
  rfl

theorem greaterOrEqual_holds : greaterOrEqual.holds foldCase l r =
    (greater.holds foldCase l r || equal.holds foldCase l r) := by
  rw [holds_eq, holds_eq, holds_eq]
  rfl

/-- What an operator says with its sides exchanged, if it is one that follows the comparison. -/
def converse? : Operator → Option Operator
  | equal => some equal
  | notEqual => some notEqual
  | less => some greater
  | lessOrEqual => some greaterOrEqual
  | greater => some less
  | greaterOrEqual => some lessOrEqual
  | beginsWith | contains | endsWith => none

theorem relates_converse {op op' : Operator} (h : op.converse? = some op') :
    op'.relates r l = op.relates l r := by
  cases op with
  | equal | notEqual | less | lessOrEqual | greater | greaterOrEqual =>
    obtain rfl := Option.some.inj h
    simp only [relates, Value.compare_swap l r]
    rcases l.compare r with _ | (_ | _ | _) <;> rfl
  | beginsWith | contains | endsWith => exact absurd h (by simp [converse?])

theorem holds_converse {op op' : Operator} (h : op.converse? = some op') :
    op'.holds foldCase r l = op.holds foldCase l r := by
  rw [holds_eq, holds_eq, relates_converse _ _ h]

variable {l r}

/-- Of values that compare, one is less or greater or they are equal. -/
theorem existsUnique_holds (h : Value.Comparable l r) :
    ∃! op, op ∈ [less, equal, greater] ∧ op.holds foldCase l r = true := by
  simp only [holds_eq]
  rw [← Value.isSome_compare_iff, ← Value.isSome_compare_folded foldCase] at h
  obtain ⟨ordering, hcompare⟩ := Option.isSome_iff_exists.1 h
  cases ordering with
  | lt => exact ⟨less, by simp [relates, hcompare], by simp [relates, hcompare]⟩
  | eq => exact ⟨equal, by simp [relates, hcompare], by simp [relates, hcompare]⟩
  | gt => exact ⟨greater, by simp [relates, hcompare], by simp [relates, hcompare]⟩

theorem holds_of_not_comparable (h : ¬ Value.Comparable l r) {op : Operator}
    (hop : op ∈ [less, equal, greater]) : op.holds foldCase l r = false := by
  rw [holds_eq]
  rw [← Value.isSome_compare_iff, ← Value.isSome_compare_folded foldCase,
    Option.isSome_iff_ne_none, not_not] at h
  simp only [List.mem_cons, List.not_mem_nil, or_false] at hop
  rcases hop with rfl | rfl | rfl <;> simp [relates, h]

/-! ### Strings -/

theorem exists_of_onStrings {relates : List Char → List Char → Bool}
    (h : onStrings relates l r = true) :
    ∃ s t, l = .string s ∧ r = .string t ∧ relates s.toList t.toList = true := by
  cases l with
  | string s =>
    cases r with
    | string t => exact ⟨s, t, rfl, rfl, h⟩
    | nil | bool | integer | float => exact absurd h (by simp [onStrings])
  | nil | bool | integer | float => exact absurd h (by simp [onStrings])

/-- A string that begins or ends with another holds it. -/
theorem contains_of_end {op : Operator} (hop : op ∈ [beginsWith, endsWith])
    (h : op.holds foldCase l r = true) : contains.holds foldCase l r = true := by
  rw [holds_eq] at h ⊢
  rcases List.mem_pair.1 hop with rfl | rfl
  · simp only [relates] at h
    obtain ⟨s, t, hs, ht, hprefix⟩ := exists_of_onStrings h
    rw [hs, ht]
    exact occursIn_iff.2 (of_decide_eq_true hprefix).isInfix
  · simp only [relates] at h
    obtain ⟨s, t, hs, ht, hsuffix⟩ := exists_of_onStrings h
    rw [hs, ht]
    exact occursIn_iff.2 (of_decide_eq_true hsuffix).isInfix

theorem kind_of_part {op : Operator} (hop : op ∈ [beginsWith, contains, endsWith])
    (h : op.holds foldCase l r = true) : l.kind = .string ∧ r.kind = .string := by
  rw [holds_eq] at h
  have hstrings : ∃ s t, l.folded foldCase = .string s ∧ r.folded foldCase = .string t := by
    simp only [List.mem_cons, List.not_mem_nil, or_false] at hop
    rcases hop with rfl | rfl | rfl
    all_goals
      simp only [relates] at h
      obtain ⟨s, t, hs, ht, -⟩ := exists_of_onStrings h
      exact ⟨s, t, hs, ht⟩
  obtain ⟨s, t, hs, ht⟩ := hstrings
  rw [← Value.kind_folded foldCase l, ← Value.kind_folded foldCase r, hs, ht]
  exact ⟨rfl, rfl⟩

end Operator

/-! ### Comparisons turned round -/

namespace Predicate

/-- One comparison of the first predicate, wherever it stands, has its operands exchanged in the
second, and its operator is replaced by the converse. -/
inductive Turned : Predicate → Predicate → Prop
  | comparison {left op op' right foldCase} : op.converse? = some op' →
      Turned (.comparison left op right foldCase) (.comparison right op' left foldCase)
  | compound {kind before p q after} : Turned p q →
      Turned (.compound kind (before ++ p :: after)) (.compound kind (before ++ q :: after))
  | not {p q} : Turned p q → Turned (.not p) (.not q)

theorem holdsBetween_converse {op op' : Operator} (h : op.converse? = some op') (foldCase : Bool)
    (a b : Option Value) : op'.holdsBetween foldCase b a = op.holdsBetween foldCase a b := by
  cases a with
  | none => cases b <;> rfl
  | some l =>
    cases b with
    | none => rfl
    | some r => exact Operator.holds_converse foldCase l r h

theorem evaluateAll_replace {look : Lookup} {p q : Predicate}
    (h : q.evaluate look = p.evaluate look) (before after : List Predicate) :
    evaluateAll look (before ++ q :: after) = evaluateAll look (before ++ p :: after) :=
  evaluateAll_congr (by rw [List.map_append, List.map_append, List.map_cons, List.map_cons, h])

theorem evaluateAny_replace {look : Lookup} {p q : Predicate}
    (h : q.evaluate look = p.evaluate look) (before after : List Predicate) :
    evaluateAny look (before ++ q :: after) = evaluateAny look (before ++ p :: after) :=
  evaluateAny_congr (by rw [List.map_append, List.map_append, List.map_cons, List.map_cons, h])

/-- A predicate without placeholders keeps its value when a comparison is turned round. -/
theorem evaluate_turned {p q : Predicate} (h : Turned p q) (hbound : ∀ o, .placeholder o ∉ p.leaves)
    (look : Lookup) : q.evaluate look = p.evaluate look := by
  induction h with
  | @comparison left op op' right foldCase hop =>
    simp only [leaves_comparison, List.mem_pair, not_or] at hbound
    obtain ⟨a, ha⟩ := Operand.exists_resolve (fun o => (hbound o).1) look
    obtain ⟨b, hb⟩ := Operand.exists_resolve (fun o => (hbound o).2) look
    rw [evaluate, evaluate, ha, hb]
    exact congrArg Except.ok (holdsBetween_converse hop foldCase a b)
  | @compound kind before p q after _ ih =>
    have hp := ih fun o ho => hbound o (by simp [ho])
    cases kind with
    | and => rw [evaluate, evaluate, evaluateAll_replace hp]
    | or => rw [evaluate, evaluate, evaluateAny_replace hp]
  | not _ ih => rw [evaluate, evaluate, ih (by simpa using hbound)]

end Predicate

namespace Operator

/-- The laws of comparison, with case folded or not. The operators for "not" and "or equal" say what
they are named for; an order holds of two values when its converse holds of them exchanged; exactly
one of less, equal and greater holds of values that compare and none of others; and what begins or
ends with a part holds it, all three of strings only. So turning round a comparison by one of the
six operators of order leaves every predicate without placeholders as it is, on every record. -/
theorem operator_laws :
    (∀ (foldCase : Bool) (l r : Value),
      (notEqual.holds foldCase l r = !equal.holds foldCase l r ∧
        lessOrEqual.holds foldCase l r =
          (less.holds foldCase l r || equal.holds foldCase l r) ∧
        greaterOrEqual.holds foldCase l r =
          (greater.holds foldCase l r || equal.holds foldCase l r)) ∧
      (less.holds foldCase l r = greater.holds foldCase r l ∧
        lessOrEqual.holds foldCase l r = greaterOrEqual.holds foldCase r l ∧
        equal.holds foldCase l r = equal.holds foldCase r l) ∧
      (Value.Comparable l r →
        ∃! op, op ∈ [less, equal, greater] ∧ op.holds foldCase l r = true) ∧
      (¬ Value.Comparable l r →
        ∀ op ∈ [less, equal, greater], op.holds foldCase l r = false) ∧
      (∀ op ∈ [beginsWith, endsWith],
        op.holds foldCase l r = true → contains.holds foldCase l r = true) ∧
      ∀ op ∈ [beginsWith, contains, endsWith],
        op.holds foldCase l r = true → l.kind = .string ∧ r.kind = .string) ∧
    ∀ (p q : Predicate) (look : Lookup), p.Turned q → p.placeholders = [] →
      q.evaluate look = p.evaluate look := by
  refine ⟨fun foldCase l r => ⟨⟨notEqual_holds .., lessOrEqual_holds .., greaterOrEqual_holds ..⟩,
    ⟨?_, ?_, ?_⟩, existsUnique_holds foldCase, fun h op => holds_of_not_comparable foldCase h,
    fun op => contains_of_end foldCase, fun op => kind_of_part foldCase⟩, fun p q look h hbound => ?_⟩
  · exact holds_converse foldCase r l rfl
  · exact holds_converse foldCase r l rfl
  · exact holds_converse foldCase r l rfl
  · exact Predicate.evaluate_turned h (Predicate.placeholders_eq_nil_iff.1 hbound) look

/-- An integer and the double it rounds to, what is no number and itself, two strings that match when
folded, and a comparison inside a negation of which one side leads nowhere. -/
theorem operator_laws_turned :
    let count := Value.integer (2 ^ 53 + 1)
    let double := Value.float (.ofInt (2 ^ 53))
    let nan := Value.float .nan
    let named := Predicate.comparison (.path ⟨["name"]⟩) .endsWith (.literal (.string "B")) true
    let p := Predicate.not (.compound .or
      [named, .comparison (.literal count) .less (.path ⟨["stock", "count"]⟩) false])
    let q := Predicate.not (.compound .or
      [named, .comparison (.path ⟨["stock", "count"]⟩) .greater (.literal count) false])
    let record : FlatRecord := ⟨[("name", .string "job")]⟩
    (Value.Comparable count double ∧
      ∃! op, op ∈ [less, equal, greater] ∧ op.holds false count double = true) ∧
    (¬ Value.Comparable nan nan ∧ equal.holds true nan nan = false) ∧
    (endsWith.holds true (.string "job") (.string "B") = true ∧
      contains.holds true (.string "job") (.string "B") = true) ∧
    (p.Turned q ∧ p.placeholders = [] ∧
      q.evaluate (Record.resolve record) = p.evaluate (Record.resolve record)) := by
  intro count double nan named p q record
  obtain ⟨hoperators, hturned⟩ := operator_laws
  obtain ⟨-, -, hone, -⟩ := hoperators false count double
  obtain ⟨-, -, -, hnone, -⟩ := hoperators true nan nan
  obtain ⟨-, -, -, -, hcontains, -⟩ := hoperators true (.string "job") (.string "B")
  have hcomparable : Value.Comparable count double :=
    .numbers (.integer _) (.float (Binary64.isNaN_ofInt _))
  have hnan : ¬ Value.Comparable nan nan := by
    rw [← Value.isSome_compare_iff]
    decide
  have hends : endsWith.holds true (.string "job") (.string "B") = true := by decide
  have hpq : p.Turned q := .not (@Predicate.Turned.compound .or [named] _ _ [] (.comparison rfl))
  exact ⟨⟨hcomparable, hone hcomparable⟩, ⟨hnan, hnone hnan equal (by simp)⟩,
    ⟨hends, hcontains endsWith (by simp) hends⟩, hpq, rfl, hturned p q _ hpq rfl⟩

end Operator

end RecordQuery
