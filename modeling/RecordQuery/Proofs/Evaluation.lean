import RecordQuery.Predicate.Evaluation
import RecordQuery.Proofs.Comparison
import RecordQuery.Proofs.Leaves

/-! Evaluation and the leaves of a predicate. Only placeholders keep a predicate from having a
value, and an operand may be replaced by another one that no operator tells apart from it. -/

namespace RecordQuery

namespace Predicate

/-- A conjunction depends on the outcomes of its operands alone. -/
theorem evaluateAll_congr {look look' : Lookup} {ps qs : List Predicate}
    (h : ps.map (evaluate look) = qs.map (evaluate look')) :
    evaluateAll look ps = evaluateAll look' qs := by
  induction ps generalizing qs with
  | nil =>
    obtain rfl := List.map_eq_nil_iff.1 h.symm
    rfl
  | cons p ps ih =>
    obtain ⟨q, qs, rfl, hq, hqs⟩ := List.map_eq_cons_iff.1 h.symm
    rw [evaluateAll, evaluateAll, hq, ih hqs.symm]

/-- A disjunction depends on the outcomes of its operands alone. -/
theorem evaluateAny_congr {look look' : Lookup} {ps qs : List Predicate}
    (h : ps.map (evaluate look) = qs.map (evaluate look')) :
    evaluateAny look ps = evaluateAny look' qs := by
  induction ps generalizing qs with
  | nil =>
    obtain rfl := List.map_eq_nil_iff.1 h.symm
    rfl
  | cons p ps ih =>
    obtain ⟨q, qs, rfl, hq, hqs⟩ := List.map_eq_cons_iff.1 h.symm
    rw [evaluateAny, evaluateAny, hq, ih hqs.symm]

theorem exists_evaluateAll {look : Lookup} {ps : List Predicate}
    (h : ∀ p ∈ ps, ∃ b, p.evaluate look = .ok b) : ∃ b, evaluateAll look ps = .ok b := by
  induction ps with
  | nil => exact ⟨true, rfl⟩
  | cons p ps ih =>
    obtain ⟨b, hb⟩ := h p (by simp)
    rw [evaluateAll, hb]
    cases b with
    | true => exact ih fun q hq => h q (List.mem_cons_of_mem p hq)
    | false => exact ⟨false, rfl⟩

theorem exists_evaluateAny {look : Lookup} {ps : List Predicate}
    (h : ∀ p ∈ ps, ∃ b, p.evaluate look = .ok b) : ∃ b, evaluateAny look ps = .ok b := by
  induction ps with
  | nil => exact ⟨false, rfl⟩
  | cons p ps ih =>
    obtain ⟨b, hb⟩ := h p (by simp)
    rw [evaluateAny, hb]
    cases b with
    | true => exact ⟨true, rfl⟩
    | false => exact ih fun q hq => h q (List.mem_cons_of_mem p hq)

end Predicate

/-- Only a placeholder leads to no outcome. -/
theorem Operand.exists_resolve {o : Operand} (h : ∀ q, .placeholder q ≠ o) (look : Lookup) :
    ∃ a, o.resolve look = .ok a := by
  cases o with
  | placeholder q => exact absurd rfl (h q)
  | literal v => exact ⟨_, rfl⟩
  | path path => exact ⟨_, rfl⟩

namespace Predicate

/-- Without placeholders a predicate has a value on every record. -/
theorem exists_evaluate {p : Predicate} (h : ∀ q, .placeholder q ∉ p.leaves) (look : Lookup) :
    ∃ b, p.evaluate look = .ok b := by
  induction p with
  | comparison left op right foldCase =>
    simp only [leaves_comparison, List.mem_pair, not_or] at h
    obtain ⟨a, ha⟩ := Operand.exists_resolve (fun q => (h q).1) look
    obtain ⟨b, hb⟩ := Operand.exists_resolve (fun q => (h q).2) look
    rw [evaluate, ha, hb]
    exact ⟨_, rfl⟩
  | compound kind operands ih =>
    have hoperands (p : Predicate) (hp : p ∈ operands) : ∃ b, p.evaluate look = .ok b := by
      refine ih p hp fun q hq => h q ?_
      rw [leaves_compound]
      exact List.mem_flatMap_of_mem hp hq
    cases kind with
    | and => exact exists_evaluateAll hoperands
    | or => exact exists_evaluateAny hoperands
  | not operand ih =>
    obtain ⟨b, hb⟩ := ih (by simpa using h)
    rw [evaluate, hb]
    exact ⟨_, rfl⟩
  | constant value => exact ⟨value, rfl⟩

end Predicate

/-! ### Operands that no operator tells apart -/

/-- Two outcomes of operands: the same error, or outcomes that no operator tells apart. -/
inductive SameOutcome : Except Unbound (Option Value) → Except Unbound (Option Value) → Prop
  | error {e : Unbound} : SameOutcome (.error e) (.error e)
  | ok {a b : Option Value} : (∀ (op : Operator) (foldCase : Bool) (c : Option Value),
      op.holdsBetween foldCase a c = op.holdsBetween foldCase b c ∧
        op.holdsBetween foldCase c a = op.holdsBetween foldCase c b) →
      SameOutcome (.ok a) (.ok b)

theorem Value.Alike.sameOutcome {v w : Value} (h : v.Alike w) :
    SameOutcome (.ok (some v)) (.ok (some w)) := by
  refine .ok fun op foldCase c => ?_
  cases c with
  | none => exact ⟨rfl, rfl⟩
  | some u => exact h op foldCase u

theorem Operand.sameOutcome_denoted {o : Operand} (look : Lookup)
    (h : ∀ v, o = .literal v → v.denoted.Alike v) :
    SameOutcome (o.denoted.resolve look) (o.resolve look) := by
  cases o with
  | placeholder p => exact .error
  | path path => exact .ok fun _ _ _ => ⟨rfl, rfl⟩
  | literal v => exact (h v rfl).sameOutcome

namespace Predicate

variable {look look' : Lookup}

theorem evaluateAll_map {f : Predicate → Predicate} {ps : List Predicate}
    (h : ∀ p ∈ ps, (f p).evaluate look = p.evaluate look') :
    evaluateAll look (ps.map f) = evaluateAll look' ps := by
  refine evaluateAll_congr ?_
  rw [List.map_map]
  exact List.map_congr_left h

theorem evaluateAny_map {f : Predicate → Predicate} {ps : List Predicate}
    (h : ∀ p ∈ ps, (f p).evaluate look = p.evaluate look') :
    evaluateAny look (ps.map f) = evaluateAny look' ps := by
  refine evaluateAny_congr ?_
  rw [List.map_map]
  exact List.map_congr_left h

/-- Operands may be replaced, and the record changed, if no operator tells the outcomes apart. -/
theorem evaluate_mapLeaves {f : Operand → Operand} {p : Predicate}
    (h : ∀ o ∈ p.leaves, SameOutcome ((f o).resolve look) (o.resolve look')) :
    (p.mapLeaves f).evaluate look = p.evaluate look' := by
  induction p with
  | comparison left op right foldCase =>
    simp only [leaves_comparison, List.mem_pair, forall_eq_or_imp, forall_eq] at h
    obtain ⟨hleft, hright⟩ := h
    rw [mapLeaves_comparison, evaluate, evaluate]
    generalize (f left).resolve look = l, left.resolve look' = l' at hleft ⊢
    generalize (f right).resolve look = r, right.resolve look' = r' at hright ⊢
    cases hleft with
    | error => rfl
    | ok hleft =>
      cases hright with
      | error => rfl
      | @ok b b' hright =>
        refine congrArg Except.ok ?_
        rw [(hleft op foldCase b).1, (hright op foldCase _).2]
  | compound kind operands ih =>
    have hoperands (p : Predicate) (hp : p ∈ operands) :
        (p.mapLeaves f).evaluate look = p.evaluate look' := by
      refine ih p hp fun o ho => h o ?_
      rw [leaves_compound]
      exact List.mem_flatMap_of_mem hp ho
    rw [mapLeaves_compound]
    cases kind with
    | and => rw [evaluate, evaluate, evaluateAll_map hoperands]
    | or => rw [evaluate, evaluate, evaluateAny_map hoperands]
  | not operand ih =>
    rw [mapLeaves_not, evaluate, evaluate, ih (by simpa using h)]
  | constant value => rfl

/-- Literals may be replaced by what their texts denote if no operator tells them apart. -/
theorem evaluate_denoted {p : Predicate} (h : ∀ v ∈ p.literals, v.denoted.Alike v) :
    (p.mapLeaves Operand.denoted).evaluate look = p.evaluate look := by
  refine evaluate_mapLeaves fun o ho => o.sameOutcome_denoted look fun v hv => h v ?_
  rw [mem_literals, ← hv]
  exact ho

/-- A predicate depends on the outcomes of its operands alone. -/
theorem evaluate_congr {p : Predicate}
    (h : ∀ o ∈ p.leaves, SameOutcome (o.resolve look) (o.resolve look')) :
    p.evaluate look = p.evaluate look' := by
  rw [← evaluate_mapLeaves (f := id) h, mapLeaves_id]

end Predicate

end RecordQuery
