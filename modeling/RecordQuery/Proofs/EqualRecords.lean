import RecordQuery.Proofs.Atoms
import RecordQuery.Proofs.Collation
import RecordQuery.Proofs.DocumentEquality
import RecordQuery.Proofs.Evaluation
import RecordQuery.SortDirective

/-! Records that are equal, but not the same. A path leads in both to one value, or in the one to a
double and in the other to an equal one, such as the other zero. No operator and no place in a
collation tells these apart, and so no predicate does, no criterion whose test is known, and no sort
directive. -/

namespace RecordQuery

/-- One value, or doubles that are the same number. -/
inductive Value.Same : Value → Value → Prop
  | refl {v : Value} : Same v v
  | float {x y : Binary64} : (x == y) = true → Same (float x) (float y)

namespace Binary64

variable {x y : Binary64}

theorem compare_of_beq (h : (x == y) = true) (z : Binary64) : x.compare z = y.compare z := by
  obtain ⟨hx, hy, hscaled⟩ := beq_iff.1 h
  exact compare_congr (hx.trans hy.symm) hscaled z

theorem collate_of_beq (h : (x == y) = true) (z : Binary64) : x.collate z = y.collate z := by
  obtain ⟨-, -, hscaled⟩ := beq_iff.1 h
  rw [collate_eq, collate_eq, (scaled_eq_iff x y).1 hscaled]

end Binary64

namespace Value.Same

variable {v v' w w' : Value}

theorem alike (h : v.Same w) : v.Alike w := by
  cases h with
  | refl => exact alike_refl v
  | float h =>
    refine alike_of_compare (by simp [kind]) (by simp [kind]) fun u => ?_
    cases u with
    | nil | string => rfl
    | bool | integer | float => exact Binary64.compare_of_beq h _

theorem collate_left (h : v.Same w) (u : Value) : v.collate u = w.collate u := by
  cases h with
  | refl => rfl
  | float h =>
    cases u with
    | nil | string => rfl
    | bool | integer | float =>
      rw [collate_of_double? rfl rfl (.inl rfl), collate_of_double? rfl rfl (.inl rfl),
        Binary64.collate_of_beq h]

theorem collate (h : v.Same w) (h' : v'.Same w') : v.collate v' = w.collate w' := by
  rw [h.collate_left, collate_swap v' w, h'.collate_left, ← collate_swap]

end Value.Same

/-- Operators see nothing else of two outcomes than whether they are there and which value. -/
theorem Operator.holdsBetween_of_rel {a b : Option Value} (h : Option.Rel Value.Same a b)
    (op : Operator) (foldCase : Bool) (c : Option Value) :
    op.holdsBetween foldCase a c = op.holdsBetween foldCase b c ∧
      op.holdsBetween foldCase c a = op.holdsBetween foldCase c b := by
  cases h with
  | none => exact ⟨rfl, rfl⟩
  | some h =>
    cases c with
    | none => exact ⟨rfl, rfl⟩
    | some u => exact h.alike op foldCase u

/-- Lookups that lead by every path to the same value, or both to none. -/
def Lookup.Agrees (look look' : Lookup) : Prop :=
  ∀ path, Option.Rel Value.Same (look path) (look' path)

theorem Document.Equal.scalar? {a b : Document} (h : a.Equal b) :
    Option.Rel Value.Same a.scalar? b.scalar? := by
  cases beq_iff_matches.1 h.beq with
  | float hxy => exact .some (.float hxy)
  | array | object => exact .none
  | null | bool | integer | string => exact .some .refl

/-- Equal documents agree as records. -/
theorem Document.Equal.agrees {a b : Document} (h : a.Equal b) :
    (Record.resolve a : Lookup).Agrees (Record.resolve b) :=
  fun path => rel_bind (h.follow path.steps) fun _ _ h => h.scalar?

namespace Lookup.Agrees

variable {look look' : Lookup}

theorem refl (look : Lookup) : look.Agrees look := by
  intro path
  cases look path with
  | none => exact .none
  | some v => exact .some .refl

theorem sameOutcome (h : look.Agrees look') (o : Operand) :
    SameOutcome (o.resolve look) (o.resolve look') := by
  cases o with
  | literal v => exact .ok fun _ _ _ => ⟨rfl, rfl⟩
  | path path => exact .ok (Operator.holdsBetween_of_rel (h path))
  | placeholder p => exact .error

theorem evaluate_eq (h : look.Agrees look') (p : Predicate) :
    p.evaluate look = p.evaluate look' :=
  Predicate.evaluate_congr fun o _ => h.sameOutcome o

theorem literal_resolve (h : look.Agrees look') (literal : Literal) :
    Option.Rel Value.Same (literal.resolve look) (literal.resolve look') := by
  cases literal with
  | value v => exact .some .refl
  | field path => exact h path

/-- External predicates alone may tell records apart that agree. -/
theorem selects_eq (h : look.Agrees look') {c : Criterion} (hc : ∀ e, .external e ∉ c.atoms) :
    c.selects look = c.selects look' := by
  induction c with
  | comparison field op literal foldCase =>
    rw [Criterion.selects, Criterion.selects,
      (Operator.holdsBetween_of_rel (h field) op foldCase _).1,
      (Operator.holdsBetween_of_rel (h.literal_resolve literal) op foldCase _).2]
  | logical kind operands ih =>
    refine Criterion.selects_logical_congr (List.map_congr_left fun c hmem => ?_) kind
    exact ih c hmem fun e he => hc e (Criterion.atoms_subset hmem he)
  | native p => rw [Criterion.selects, Criterion.selects, h.evaluate_eq]
  | external e => exact absurd List.mem_cons_self (hc e)

theorem key (h : look.Agrees look') (d : SortDirective) : (d.key look).Same (d.key look') := by
  unfold SortDirective.key
  have hfield := h d.field
  generalize look d.field = o, look' d.field = o' at hfield
  cases hfield with
  | none => exact .refl
  | some h => exact h

variable {look₂ look₂' : Lookup}

theorem compare_eq (h : look.Agrees look') (h₂ : look₂.Agrees look₂') (d : SortDirective) :
    d.compare look look₂ = d.compare look' look₂' := by
  rw [SortDirective.compare, SortDirective.compare, (h.key d).collate (h₂.key d)]

theorem compareBy_eq (h : look.Agrees look') (h₂ : look₂.Agrees look₂')
    (directives : List SortDirective) :
    compareBy directives look look₂ = compareBy directives look' look₂' := by
  induction directives with
  | nil => rfl
  | cons d ds ih => rw [compareBy_cons, compareBy_cons, h.compare_eq h₂, ih]

end Lookup.Agrees

end RecordQuery
