import Mathlib.Data.List.Basic
import RecordQuery.Predicate.Basic

/-! Predicates as trees over operands. What a predicate says of paths, literals and placeholders is
said of its leaves, from left to right; replacing leaves keeps kinds, grouping, operators and the
order of operands. A predicate is branching when each of its compounds joins at least two operands,
as everything that is read does. -/

namespace RecordQuery

namespace Operand

def path? : Operand → Option KeyPath
  | path p => some p
  | _ => none

def literal? : Operand → Option Value
  | literal v => some v
  | _ => none

end Operand

namespace Predicate

/-- Induction in which the operands of a compound are covered one by one. -/
@[elab_as_elim, induction_eliminator]
theorem induction {motive : Predicate → Prop}
    (comparison : ∀ left op right foldCase, motive (.comparison left op right foldCase))
    (compound : ∀ kind operands, (∀ p ∈ operands, motive p) → motive (.compound kind operands))
    (not : ∀ operand, motive operand → motive (.not operand))
    (constant : ∀ value, motive (.constant value)) (p : Predicate) : motive p :=
  match p with
  | .comparison left op right foldCase => comparison left op right foldCase
  | .compound kind operands =>
    compound kind operands fun p _ => induction comparison compound not constant p
  | .not operand => not operand (induction comparison compound not constant operand)
  | .constant value => constant value

mutual

/-- The operands of all comparisons from left to right. -/
def leaves : Predicate → List Operand
  | comparison left _ right _ => [left, right]
  | compound _ operands => leavesOfAll operands
  | not operand => operand.leaves
  | constant _ => []

def leavesOfAll : List Predicate → List Operand
  | [] => []
  | p :: ps => p.leaves ++ leavesOfAll ps

end

@[simp] theorem leavesOfAll_eq (ps : List Predicate) : leavesOfAll ps = ps.flatMap leaves := by
  induction ps <;> simp_all [leavesOfAll]

mutual

/-- The same tree over other operands. -/
def mapLeaves (f : Operand → Operand) : Predicate → Predicate
  | comparison left op right foldCase => comparison (f left) op (f right) foldCase
  | compound kind operands => compound kind (mapLeavesOfAll f operands)
  | not operand => not (operand.mapLeaves f)
  | constant value => constant value

def mapLeavesOfAll (f : Operand → Operand) : List Predicate → List Predicate
  | [] => []
  | p :: ps => p.mapLeaves f :: mapLeavesOfAll f ps

end

@[simp] theorem mapLeavesOfAll_eq (f : Operand → Operand) (ps : List Predicate) :
    mapLeavesOfAll f ps = ps.map (mapLeaves f) := by
  induction ps <;> simp_all [mapLeavesOfAll]

def paths (p : Predicate) : List KeyPath := p.leaves.filterMap Operand.path?

def literals (p : Predicate) : List Value := p.leaves.filterMap Operand.literal?

/-- Every compound, at whatever depth, joins at least two operands. -/
inductive Branching : Predicate → Prop
  | comparison {left op right foldCase} : Branching (comparison left op right foldCase)
  | compound {kind operands} : 2 ≤ operands.length → (∀ p ∈ operands, Branching p) →
      Branching (compound kind operands)
  | not {operand} : Branching operand → Branching (not operand)
  | constant {value} : Branching (constant value)

/-! ### Leaves of the parts -/

@[simp] theorem leaves_comparison (left op right foldCase) :
    (comparison left op right foldCase).leaves = [left, right] := rfl

@[simp] theorem leaves_compound (kind operands) :
    (compound kind operands).leaves = operands.flatMap leaves := by
  simp [leaves]

@[simp] theorem leaves_not (operand) : (not operand).leaves = operand.leaves := by
  simp [leaves]

@[simp] theorem leaves_constant (value) : (constant value).leaves = [] := rfl

theorem leaves_chain (kind : Connective) (ps : List Predicate) :
    (chain kind ps).leaves = ps.flatMap leaves := by
  unfold chain
  split
  · simp
  · simp

theorem mem_paths {p : Predicate} {path : KeyPath} : path ∈ p.paths ↔ .path path ∈ p.leaves := by
  simp only [paths, List.mem_filterMap]
  constructor
  · rintro ⟨o, ho, he⟩
    cases o <;> simp_all [Operand.path?]
  · intro h
    exact ⟨_, h, rfl⟩

theorem mem_literals {p : Predicate} {v : Value} : v ∈ p.literals ↔ .literal v ∈ p.leaves := by
  simp only [literals, List.mem_filterMap]
  constructor
  · rintro ⟨o, ho, he⟩
    cases o <;> simp_all [Operand.literal?]
  · intro h
    exact ⟨_, h, rfl⟩

theorem placeholders_eq (p : Predicate) :
    p.placeholders = p.leaves.flatMap Operand.placeholders := by
  induction p with
  | comparison left op right foldCase => simp [placeholders]
  | compound kind operands ih =>
    simp only [placeholders, placeholdersOfAll_eq, leaves_compound, List.flatMap_assoc]
    exact List.flatMap_congr ih
  | not operand ih => simpa [placeholders] using ih
  | constant value => rfl

theorem placeholders_eq_nil_iff {p : Predicate} :
    p.placeholders = [] ↔ ∀ q, .placeholder q ∉ p.leaves := by
  rw [placeholders_eq, List.flatMap_eq_nil_iff]
  constructor
  · intro h q hq
    simpa [Operand.placeholders] using h _ hq
  · intro h o ho
    cases o with
    | placeholder q => exact absurd ho (h q)
    | literal v => rfl
    | path p => rfl

/-! ### Replacing leaves -/

@[simp] theorem mapLeaves_comparison (f : Operand → Operand) (left op right foldCase) :
    (comparison left op right foldCase).mapLeaves f = comparison (f left) op (f right) foldCase :=
  rfl

@[simp] theorem mapLeaves_compound (f : Operand → Operand) (kind operands) :
    (compound kind operands).mapLeaves f = compound kind (operands.map (mapLeaves f)) := by
  simp [mapLeaves]

@[simp] theorem mapLeaves_not (f : Operand → Operand) (operand) :
    (not operand).mapLeaves f = not (operand.mapLeaves f) := by
  simp [mapLeaves]

@[simp] theorem mapLeaves_constant (f : Operand → Operand) (value) :
    (constant value).mapLeaves f = constant value := rfl

@[simp] theorem isCompound_mapLeaves (f : Operand → Operand) (p : Predicate) :
    (p.mapLeaves f).isCompound = p.isCompound := by
  cases p <;> simp [isCompound]

theorem leaves_mapLeaves (f : Operand → Operand) (p : Predicate) :
    (p.mapLeaves f).leaves = p.leaves.map f := by
  induction p with
  | comparison left op right foldCase => rfl
  | compound kind operands ih =>
    simp only [mapLeaves_compound, leaves_compound, List.flatMap_map, List.map_flatMap]
    exact List.flatMap_congr ih
  | not operand ih => simpa using ih
  | constant value => rfl

theorem mapLeaves_congr {f g : Operand → Operand} {p : Predicate} (h : ∀ o ∈ p.leaves, f o = g o) :
    p.mapLeaves f = p.mapLeaves g := by
  induction p with
  | comparison left op right foldCase => simp_all
  | compound kind operands ih =>
    simp only [mapLeaves_compound, compound.injEq, true_and]
    refine List.map_congr_left fun p hp => ih p hp fun o ho => h o ?_
    rw [leaves_compound]
    exact List.mem_flatMap_of_mem hp ho
  | not operand ih => simp_all
  | constant value => rfl

theorem mapLeaves_id (p : Predicate) : p.mapLeaves id = p := by
  induction p with
  | comparison left op right foldCase => rfl
  | compound kind operands ih =>
    rw [mapLeaves_compound, List.map_congr_left ih, List.map_id']
  | not operand ih => rw [mapLeaves_not, ih]
  | constant value => rfl

end Predicate

end RecordQuery
