import RecordQuery.Proofs.Bound
import RecordQuery.Proofs.Evaluation
import RecordQuery.Record

/-! Answers that are determined before all arguments are known. A predicate whose placeholders are
replaced by literals and paths has a value on every record, and if evaluation answered before, it
gives the same answer now: it got there without meeting a placeholder, through operands that the
replacement leaves as they are. A comparison that holds a placeholder never gives an answer, even
where its other operand leads to no scalar and the comparison could only be false. -/

namespace RecordQuery

/-- What may stand for an operand once its placeholder is replaced: any literal and any path for a
placeholder, and for every other operand only itself. -/
inductive Operand.FilledBy : Operand → Operand → Prop
  | literal {v} : FilledBy (.literal v) (.literal v)
  | path {p} : FilledBy (.path p) (.path p)
  | byLiteral {q v} : FilledBy (.placeholder q) (.literal v)
  | byPath {q p} : FilledBy (.placeholder q) (.path p)

namespace Operand

variable {o o' : Operand} {look : Lookup}

theorem FilledBy.ne_placeholder (h : o.FilledBy o') (q : Placeholder) : .placeholder q ≠ o' := by
  rintro rfl
  cases h

/-- An operand that was resolved is no placeholder, and so it is still there. -/
theorem FilledBy.resolve_eq_ok (h : o.FilledBy o') {a : Option Value}
    (ha : o.resolve look = .ok a) : o'.resolve look = .ok a := by
  cases h with
  | literal | path => exact ha
  | byLiteral | byPath => exact absurd ha (by simp [resolve])

theorem BindsTo.filledBy (h : o.BindsTo o') : o.FilledBy o' := by
  rcases h.eq_or_bind with ⟨rfl, hnone⟩ | ⟨p, argument, rfl, hbind⟩
  · cases o' with
    | literal v => exact .literal
    | path p => exact .path
    | placeholder q => exact absurd hnone (by simp [placeholders])
  · rcases Placeholder.cases_of_bind hbind with ⟨rfl, -⟩ | ⟨name, path, -, rfl⟩
    · exact .byLiteral
    · exact .byPath

end Operand

namespace Predicate

theorem Leafwise.mono {R S : Operand → Operand → Prop} (hRS : ∀ {o o'}, R o o' → S o o')
    {p q : Predicate} (h : Leafwise R p q) : Leafwise S p q := by
  induction h with
  | comparison hleft hright => exact .comparison (hRS hleft) (hRS hright)
  | compound _ ih => exact .compound ih
  | not _ ih => exact .not ih
  | constant => exact .constant

/-! ### Answers under a replacement -/

section

variable {look : Lookup} {pairs : List (Predicate × Predicate)}

/-- A conjunction that was decided stays decided: its operands up to the deciding one answered. -/
theorem evaluateAll_of_pairs
    (h : ∀ x ∈ pairs, ∀ b, x.1.evaluate look = .ok b → x.2.evaluate look = .ok b) {b : Bool}
    (hb : evaluateAll look (pairs.map Prod.fst) = .ok b) :
    evaluateAll look (pairs.map Prod.snd) = .ok b := by
  induction pairs with
  | nil => exact hb
  | cons x pairs ih =>
    obtain ⟨hx, hpairs⟩ := List.forall_mem_cons.1 h
    rw [List.map_cons, evaluateAll, bind_eq_ok_iff] at hb
    obtain ⟨first, hfirst, hrest⟩ := hb
    rw [List.map_cons, evaluateAll, hx first hfirst]
    cases first with
    | true => exact ih hpairs hrest
    | false => exact hrest

/-- A disjunction that was decided stays decided. -/
theorem evaluateAny_of_pairs
    (h : ∀ x ∈ pairs, ∀ b, x.1.evaluate look = .ok b → x.2.evaluate look = .ok b) {b : Bool}
    (hb : evaluateAny look (pairs.map Prod.fst) = .ok b) :
    evaluateAny look (pairs.map Prod.snd) = .ok b := by
  induction pairs with
  | nil => exact hb
  | cons x pairs ih =>
    obtain ⟨hx, hpairs⟩ := List.forall_mem_cons.1 h
    rw [List.map_cons, evaluateAny, bind_eq_ok_iff] at hb
    obtain ⟨first, hfirst, hrest⟩ := hb
    rw [List.map_cons, evaluateAny, hx first hfirst]
    cases first with
    | true => exact hrest
    | false => exact ih hpairs hrest

end

namespace Leafwise

variable {p q : Predicate}

theorem evaluate_eq_ok (h : Leafwise Operand.FilledBy p q) {look : Lookup} {b : Bool}
    (hb : p.evaluate look = .ok b) : q.evaluate look = .ok b := by
  induction h generalizing b with
  | comparison hleft hright =>
    rw [evaluate] at hb ⊢
    simp only [bind_eq_ok_iff] at hb
    -- the answer came from two resolved operands, none of them a placeholder
    obtain ⟨l, hl, r, hr, hb⟩ := hb
    rw [hleft.resolve_eq_ok hl, hright.resolve_eq_ok hr]
    exact hb
  | @compound kind pairs _ ih =>
    have hpairs : ∀ x ∈ pairs, ∀ b, x.1.evaluate look = .ok b → x.2.evaluate look = .ok b :=
      fun x hx b hb => ih x hx hb
    cases kind with
    | and =>
      rw [evaluate] at hb ⊢
      exact evaluateAll_of_pairs hpairs hb
    | or =>
      rw [evaluate] at hb ⊢
      exact evaluateAny_of_pairs hpairs hb
  | not _ ih =>
    rw [evaluate] at hb ⊢
    obtain ⟨inner, hinner, rfl⟩ := map_eq_ok_iff.1 hb
    rw [ih hinner]
    rfl
  | constant => exact hb

theorem exists_evaluate (h : Leafwise Operand.FilledBy p q) (look : Lookup) :
    ∃ b, q.evaluate look = .ok b := by
  refine Predicate.exists_evaluate (fun placeholder hmem => ?_) look
  obtain ⟨o, -, hfilled⟩ := h.exists_of_mem_leaves _ hmem
  exact hfilled.ne_placeholder placeholder rfl

end Leafwise

/-- Replacing all placeholders never changes an answer that was already determined. Whatever
literals and paths stand for them, the predicate has a value on every record, and where it had one
before, that is the value still. What binding makes of a predicate is such a replacement. -/
theorem evaluate_filled (p : Predicate) :
    (∀ q, Leafwise Operand.FilledBy p q → ∀ look, (∃ b, q.evaluate look = .ok b) ∧
      ∀ b, p.evaluate look = .ok b → q.evaluate look = .ok b) ∧
    ∀ arguments q, p.bind arguments = .ok q → Leafwise Operand.FilledBy p q :=
  ⟨fun _ h look => ⟨h.exists_evaluate look, fun _ hb => h.evaluate_eq_ok hb⟩,
    fun _ _ h => (leafwise_bind h).mono Operand.BindsTo.filledBy⟩

/-- Where the first operand decides, the answer stays. Where it does not, the placeholder is met
although the path beside it leads nowhere, and only binding gives an answer. -/
theorem evaluate_filled_either :
    let first := comparison (.path ⟨["a"]⟩) .equal (.literal (.integer 1)) false
    let second (o : Operand) := not (comparison (.path ⟨["missing"]⟩) .less o false)
    let p := compound .or [first, second (.placeholder .value)]
    let q := compound .or [first, second (.literal (.string "z"))]
    let decided : FlatRecord := ⟨[("a", .integer 1)]⟩
    let undecided : FlatRecord := ⟨[("a", .nil)]⟩
    p.bind [.string "z"] = .ok q ∧
      p.evaluate (Record.resolve decided) = .ok true ∧
      q.evaluate (Record.resolve decided) = .ok true ∧
      p.evaluate (Record.resolve undecided) = .error ⟨.value⟩ ∧
      ∃ b, q.evaluate (Record.resolve undecided) = .ok b := by
  intro first second p q decided undecided
  obtain ⟨hfilled, hbound⟩ := evaluate_filled p
  have hbind : p.bind [.string "z"] = .ok q := by rfl
  have hq := hfilled q (hbound [.string "z"] q hbind)
  have hdecided : p.evaluate (Record.resolve decided) = .ok true := by decide
  exact ⟨hbind, hdecided, (hq (Record.resolve decided)).2 true hdecided, by decide,
    (hq (Record.resolve undecided)).1⟩

end Predicate

end RecordQuery
