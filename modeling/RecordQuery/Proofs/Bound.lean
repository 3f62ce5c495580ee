import Mathlib.Data.List.Forall2
import RecordQuery.Predicate.Binding
import RecordQuery.Proofs.Leaves
import RecordQuery.Proofs.Outcomes

/-! Binding as a relation between trees. Two predicates are leafwise in a relation of operands when
they are the same tree over operands that are, one by one, in the relation. A bound predicate is
leafwise what binding makes of one operand of the format at a time, and so no placeholder is left
in it. -/

namespace RecordQuery

namespace Predicate

/-- The same tree, with the operands one by one in a relation. -/
inductive Leafwise (R : Operand → Operand → Prop) : Predicate → Predicate → Prop
  | comparison {left left' op right right' foldCase} : R left left' → R right right' →
      Leafwise R (comparison left op right foldCase) (comparison left' op right' foldCase)
  | compound {kind} {pairs : List (Predicate × Predicate)} :
      (∀ x ∈ pairs, Leafwise R x.1 x.2) →
      Leafwise R (compound kind (pairs.map Prod.fst)) (compound kind (pairs.map Prod.snd))
  | not {operand operand'} : Leafwise R operand operand' → Leafwise R (not operand) (not operand')
  | constant {value} : Leafwise R (constant value) (constant value)

namespace Leafwise

variable {R : Operand → Operand → Prop} {p q : Predicate}

/-- The operands from left to right are in the relation, too. -/
theorem forall₂_leaves (h : Leafwise R p q) : List.Forall₂ R p.leaves q.leaves := by
  induction h with
  | comparison hleft hright =>
    rw [leaves_comparison, leaves_comparison]
    exact .cons hleft (.cons hright .nil)
  | @compound kind pairs _ ih =>
    rw [leaves_compound, leaves_compound]
    refine List.rel_flatMap ?_ fun _ _ hleaves => hleaves
    rw [List.forall₂_map_left_iff, List.forall₂_map_right_iff, List.forall₂_same]
    exact ih
  | not _ ih => simpa using ih
  | constant => simp

theorem exists_of_mem_leaves (h : Leafwise R p q) : ∀ o' ∈ q.leaves, ∃ o ∈ p.leaves, R o o' := by
  intro o' ho'
  obtain ⟨hlength, hget⟩ := List.forall₂_iff_get.1 h.forall₂_leaves
  obtain ⟨i, rfl⟩ := List.mem_iff_get.1 ho'
  have hi : i < p.leaves.length := by rw [hlength]; exact i.isLt
  exact ⟨_, List.get_mem p.leaves ⟨i, hi⟩, hget i hi i.isLt⟩

theorem branching (h : Leafwise R p q) (hp : p.Branching) : q.Branching := by
  induction h with
  | comparison => exact .comparison
  | @compound kind pairs _ ih =>
    cases hp with
    | compound hlength hoperands =>
      rw [List.length_map] at hlength
      refine .compound (by simpa using hlength) fun q hq => ?_
      obtain ⟨x, hx, rfl⟩ := List.mem_map.1 hq
      exact ih x hx (hoperands x.1 (List.mem_map_of_mem hx))
  | not _ ih =>
    cases hp with
    | not hp => exact .not (ih hp)
  | constant => exact .constant

end Leafwise

end Predicate

/-- What binding makes of an operand, with whatever arguments are left. -/
def Operand.BindsTo (o o' : Operand) : Prop :=
  ∃ arguments rest, o.bind arguments = .ok (o', rest)

/-- An operand is bound to itself, unless it is a placeholder; then it is bound to what the
placeholder makes of an argument. -/
theorem Operand.BindsTo.eq_or_bind {o o' : Operand} (h : o.BindsTo o') :
    (o' = o ∧ o.placeholders = []) ∨
      ∃ p argument, o = .placeholder p ∧ p.bind argument = .ok o' := by
  obtain ⟨arguments, rest, h⟩ := h
  cases o with
  | literal v => exact .inl ⟨(Prod.mk.inj (Except.ok.inj h)).1.symm, rfl⟩
  | path path => exact .inl ⟨(Prod.mk.inj (Except.ok.inj h)).1.symm, rfl⟩
  | placeholder p =>
    cases arguments with
    | nil => exact absurd h (by simp [bind])
    | cons argument arguments =>
      obtain ⟨o, ho, he⟩ := map_eq_ok_iff.1 h
      obtain ⟨rfl, rfl⟩ := Prod.mk.inj he
      exact .inr ⟨p, argument, rfl, ho⟩

/-- The ways in which an argument becomes an operand. -/
theorem Placeholder.cases_of_bind {p : Placeholder} {argument : Value} {o : Operand}
    (h : p.bind argument = .ok o) : (o = .literal argument ∧ argument.isFinite = true) ∨
      ∃ name path, KeyPath.parse name = .ok path ∧ o = .path path := by
  unfold bind at h
  split at h
  · split at h
    · rename_i x hx
      exact .inl ⟨(Except.ok.inj h).symm, hx⟩
    · exact absurd h (by simp)
  · rename_i hne
    refine .inl ⟨(Except.ok.inj h).symm, ?_⟩
    cases argument with
    | float x => exact absurd rfl (hne x)
    | _ => rfl
  · obtain ⟨path, hpath, rfl⟩ := map_eq_ok_iff.1 h
    exact .inr ⟨_, path, hpath, rfl⟩
  · exact absurd h (by simp)

theorem Operand.placeholders_of_bindsTo {o o' : Operand} (h : o.BindsTo o') :
    o'.placeholders = [] := by
  rcases h.eq_or_bind with ⟨rfl, hnone⟩ | ⟨p, argument, -, hbind⟩
  · exact hnone
  · rcases Placeholder.cases_of_bind hbind with ⟨rfl, -⟩ | ⟨name, path, -, rfl⟩ <;> rfl

namespace Predicate

theorem leafwise_bindAllFrom {ps : List Predicate}
    (ih : ∀ p ∈ ps, ∀ {q arguments rest}, p.bindFrom arguments = .ok (q, rest) →
      Leafwise Operand.BindsTo p q) {arguments rest : List Value} {qs : List Predicate}
    (h : bindAllFrom ps arguments = .ok (qs, rest)) : ∃ pairs : List (Predicate × Predicate),
      ps = pairs.map Prod.fst ∧ qs = pairs.map Prod.snd ∧
        ∀ x ∈ pairs, Leafwise Operand.BindsTo x.1 x.2 := by
  induction ps generalizing arguments qs with
  | nil =>
    obtain ⟨rfl, rfl⟩ := Prod.mk.inj (Except.ok.inj h)
    exact ⟨[], rfl, rfl, by simp⟩
  | cons p ps ihs =>
    rw [bindAllFrom] at h
    simp only [bind_eq_ok_iff] at h
    obtain ⟨⟨q, t⟩, hq, ⟨qs', u⟩, hqs, he⟩ := h
    obtain ⟨rfl, rfl⟩ := Prod.mk.inj (Except.ok.inj he)
    obtain ⟨pairs, rfl, rfl, hpairs⟩ := ihs (fun p hp => ih p (List.mem_cons_of_mem _ hp)) hqs
    refine ⟨(p, q) :: pairs, rfl, rfl, ?_⟩
    rw [List.forall_mem_cons]
    exact ⟨ih p (by simp) hq, hpairs⟩

/-- Binding keeps the tree and binds its operands. -/
theorem leafwise_bindFrom {p q : Predicate} {arguments rest : List Value}
    (h : p.bindFrom arguments = .ok (q, rest)) : Leafwise Operand.BindsTo p q := by
  induction p generalizing arguments q rest with
  | comparison left op right foldCase =>
    rw [bindFrom] at h
    simp only [bind_eq_ok_iff] at h
    obtain ⟨⟨l, t⟩, hl, ⟨r, u⟩, hr, he⟩ := h
    obtain ⟨rfl, rfl⟩ := Prod.mk.inj (Except.ok.inj he)
    exact .comparison ⟨_, _, hl⟩ ⟨_, _, hr⟩
  | compound kind operands ih =>
    rw [bindFrom] at h
    simp only [bind_eq_ok_iff] at h
    obtain ⟨⟨qs, u⟩, hqs, he⟩ := h
    obtain ⟨rfl, rfl⟩ := Prod.mk.inj (Except.ok.inj he)
    obtain ⟨pairs, rfl, rfl, hpairs⟩ := leafwise_bindAllFrom ih hqs
    exact .compound hpairs
  | not operand ih =>
    rw [bindFrom] at h
    simp only [bind_eq_ok_iff] at h
    obtain ⟨⟨q', u⟩, hq, he⟩ := h
    obtain ⟨rfl, rfl⟩ := Prod.mk.inj (Except.ok.inj he)
    exact .not (ih hq)
  | constant value =>
    obtain ⟨rfl, rfl⟩ := Prod.mk.inj (Except.ok.inj h)
    exact .constant

theorem leafwise_bind {p q : Predicate} {arguments : List Value} (h : p.bind arguments = .ok q) :
    Leafwise Operand.BindsTo p q := by
  unfold bind at h
  split at h
  · obtain ⟨⟨r, rest⟩, hr, rfl⟩ := map_eq_ok_iff.1 h
    exact leafwise_bindFrom hr
  · exact absurd h (by simp)

/-- No placeholder is left in a bound predicate. -/
theorem placeholders_of_bind {p q : Predicate} {arguments : List Value}
    (h : p.bind arguments = .ok q) : q.placeholders = [] := by
  rw [placeholders_eq, List.flatMap_eq_nil_iff]
  intro o' ho'
  obtain ⟨o, -, hbinds⟩ := (leafwise_bind h).exists_of_mem_leaves o' ho'
  exact Operand.placeholders_of_bindsTo hbinds

end Predicate

end RecordQuery
