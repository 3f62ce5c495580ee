import RecordQuery.Criterion.Basic
import RecordQuery.Proofs.Leaves
import RecordQuery.Proofs.Outcomes

/-! Criteria as trees over atoms: groups at the inner nodes, comparisons and adopted predicates at
the ends. A criterion is valid when each of its atoms is: a comparison when its operands are
canonical, an adopted predicate when it waits for no argument. Nothing else of an adopted predicate
is looked at. -/

namespace RecordQuery

/-- The operand that a literal of a criterion is in a predicate. -/
def Literal.operand : Literal → Operand
  | value v => .literal v
  | field path => .path path

/-- The operands with a text that is read as an operand of the same kind: valid paths, and literals
that are finite if they are doubles. -/
def Operand.Canonical : Operand → Prop
  | literal v => v.isFinite = true
  | path p => p.isValid = true
  | placeholder _ => True

namespace Criterion

mutual

/-- The comparisons and adopted predicates from left to right. -/
def atoms : Criterion → List Criterion
  | logical _ operands => atomsOfAll operands
  | comparison field op literal foldCase => [comparison field op literal foldCase]
  | native p => [native p]
  | external e => [external e]

def atomsOfAll : List Criterion → List Criterion
  | [] => []
  | c :: cs => c.atoms ++ atomsOfAll cs

end

@[simp] theorem atomsOfAll_eq (cs : List Criterion) : atomsOfAll cs = cs.flatMap atoms := by
  induction cs <;> simp_all [atomsOfAll]

@[simp] theorem atoms_logical (kind : Logic) (operands : List Criterion) :
    (logical kind operands).atoms = operands.flatMap atoms := by
  simp [atoms]

@[simp] theorem atoms_comparison (field op literal foldCase) :
    (comparison field op literal foldCase).atoms = [comparison field op literal foldCase] := rfl

@[simp] theorem atoms_native (p : Predicate) : (native p).atoms = [native p] := rfl

@[simp] theorem atoms_external (e : External) : (external e).atoms = [external e] := rfl

theorem atoms_subset {kind : Logic} {operands : List Criterion} {c : Criterion}
    (hc : c ∈ operands) : c.atoms ⊆ (logical kind operands).atoms := by
  intro t ht
  rw [atoms_logical]
  exact List.mem_flatMap_of_mem hc ht

/-- Induction in which the operands of a group are covered one by one. -/
@[elab_as_elim, induction_eliminator]
theorem induction {motive : Criterion → Prop}
    (comparison : ∀ field op literal foldCase, motive (.comparison field op literal foldCase))
    (logical : ∀ kind operands, (∀ c ∈ operands, motive c) → motive (.logical kind operands))
    (native : ∀ p, motive (.native p)) (external : ∀ e, motive (.external e)) (c : Criterion) :
    motive c :=
  match c with
  | .comparison field op literal foldCase => comparison field op literal foldCase
  | .logical kind operands =>
    logical kind operands fun c _ => induction comparison logical native external c
  | .native p => native p
  | .external e => external e

/-- A group selects by what its operands select alone. -/
theorem selects_logical_congr {look look' : Lookup} {operands operands' : List Criterion}
    (h : operands.map (selects look) = operands'.map (selects look')) (kind : Logic) :
    (logical kind operands).selects look = (logical kind operands').selects look' := by
  have hall (look : Lookup) (cs : List Criterion) :
      allSelect look cs = (cs.map (selects look)).all id := by
    rw [allSelect_eq, List.all_map, Function.id_comp]
  have hany (look : Lookup) (cs : List Criterion) :
      anySelects look cs = (cs.map (selects look)).any id := by
    rw [anySelects_eq, List.any_map, Function.id_comp]
  cases kind <;> simp only [selects, hall, hany, h]

/-! ### Operands -/

/-- The operands of one atom; of an external predicate none is known. -/
def atomLeaves : Criterion → List Operand
  | comparison field _ literal _ => [.path field, literal.operand]
  | native p => p.leaves
  | _ => []

/-- All operands, those inside adopted predicates too. -/
def leaves (c : Criterion) : List Operand := c.atoms.flatMap atomLeaves

def literals (c : Criterion) : List Value := c.leaves.filterMap Operand.literal?

theorem mem_literals {c : Criterion} {v : Value} : v ∈ c.literals ↔ .literal v ∈ c.leaves := by
  simp only [literals, List.mem_filterMap]
  constructor
  · rintro ⟨o, ho, he⟩
    cases o <;> simp_all [Operand.literal?]
  · intro h
    exact ⟨_, h, rfl⟩

/-! ### Validity -/

theorem validateAll_eq_ok_iff {cs : List Criterion} :
    validateAll cs = .ok () ↔ ∀ c ∈ cs, c.validate = .ok () := by
  induction cs with
  | nil => simp [validateAll]
  | cons c cs ih =>
    rw [validateAll, bind_eq_ok_iff, List.forall_mem_cons, ← ih]
    exact ⟨fun ⟨(), h⟩ => h, fun h => ⟨(), h⟩⟩

theorem validate_eq_ok_iff {c : Criterion} :
    c.validate = .ok () ↔ ∀ t ∈ c.atoms, t.validate = .ok () := by
  induction c with
  | comparison | native | external => simp
  | logical kind operands ih =>
    rw [validate, validateAll_eq_ok_iff, atoms_logical]
    simp only [List.mem_flatMap]
    constructor
    · rintro h t ⟨c, hc, ht⟩
      exact (ih c hc).1 (h c hc) t ht
    · intro h c hc
      exact (ih c hc).2 fun t ht => h t ⟨c, hc, ht⟩

/-- A comparison is valid when both of its operands are canonical. -/
theorem validate_comparison_eq_ok_iff {field : KeyPath} {op : Operator} {literal : Literal}
    {foldCase : Bool} : (comparison field op literal foldCase).validate = .ok () ↔
      ∀ o ∈ (comparison field op literal foldCase).atomLeaves, o.Canonical := by
  have hcheck (valid : Bool) (error : ScopeError) :
      (if valid then .ok () else .error error : Except ScopeError Unit) = .ok () ↔
        valid = true := by cases valid <;> simp
  simp only [validate, checkComparison, atomLeaves, List.mem_pair, forall_eq_or_imp, forall_eq]
  by_cases hfield : field.isValid = true
  · cases literal with
    | field path => simp [Literal.operand, Operand.Canonical, hfield, hcheck]
    | value v =>
      cases v with
      | float x => simp [Literal.operand, Operand.Canonical, Value.isFinite, hfield, hcheck]
      | _ => simp [Literal.operand, Operand.Canonical, Value.isFinite, hfield]
  · simp [Operand.Canonical, hfield]

theorem checkPlaceholders_eq_ok_iff {n : Nat} : checkPlaceholders n = .ok () ↔ n = 0 := by
  cases n <;> simp [checkPlaceholders]

/-- An adopted predicate of the language is valid when no placeholder is left in it. -/
theorem validate_native_eq_ok_iff {p : Predicate} :
    (native p).validate = .ok () ↔ p.placeholders = [] := by
  rw [validate, checkPlaceholders_eq_ok_iff, Predicate.placeholderCount, List.length_eq_zero_iff]

end Criterion

end RecordQuery
