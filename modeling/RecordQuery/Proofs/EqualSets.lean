import RecordQuery.Proofs.EqualRecords
import RecordQuery.Proofs.SetEquality
import RecordQuery.Proofs.Sorting

/-! Evaluation of equal sets. Records that agree are selected alike and sorted alike, so sets whose
records agree one by one are evaluated to such sets. From equal sets, therefore, equal sets come
out: ordered ones under every criterion and all directives, unordered ones under every criterion,
whatever the order in which they store their records. -/

namespace RecordQuery

namespace RecordSet

variable {α β : Type} {R : α → β → Prop}

/-- Two sets of one kind whose records are related one by one. -/
structure Pairs (R : α → β → Prop) (a : RecordSet α) (b : RecordSet β) : Prop where
  ordered : a.ordered = b.ordered
  records : List.Forall₂ R a.records b.records

/-! ### Evaluation of related sets -/

section

variable [Record α] [Record β] {xs : List α} {ys : List β} {a : RecordSet α} {b : RecordSet β}
  {criterion : Option Criterion}

theorem forall₂_filterBy
    (hagrees : ∀ x y, R x y → (Record.resolve x : Lookup).Agrees (Record.resolve y))
    (hcriterion : ∀ c ∈ criterion, ∀ e, .external e ∉ c.atoms) (h : List.Forall₂ R xs ys) :
    List.Forall₂ R (filterBy criterion xs) (filterBy criterion ys) := by
  cases criterion with
  | none => exact h
  | some c =>
    refine List.rel_filter (fun x y hxy => ?_) h
    show c.selects _ = true ↔ c.selects _ = true
    rw [(hagrees x y hxy).selects_eq (hcriterion c rfl)]

/-- Records that agree go through evaluation together. -/
theorem Pairs.materialize
    (hagrees : ∀ x y, R x y → (Record.resolve x : Lookup).Agrees (Record.resolve y))
    (hcriterion : ∀ c ∈ criterion, ∀ e, .external e ∉ c.atoms) (h : Pairs R a b) (i j : ℕ)
    (ds : List SortDirective) :
    Pairs R (a.materialize i criterion ds) (b.materialize j criterion ds) := by
  refine ⟨by rw [ordered_materialize, ordered_materialize, h.ordered], ?_⟩
  rw [records_materialize, records_materialize, ← filterBy_eq, ← filterBy_eq]
  refine forall₂_stableSort (fun x y hxy x' y' hxy' => ?_)
    (forall₂_filterBy hagrees hcriterion h.records)
  rw [before, before, (hagrees x y hxy).compareBy_eq (hagrees x' y' hxy')]

end

/-! ### Equality of related sets -/

section

variable [BEq α] [BEq β] {xs xs' : List α} {ys ys' : List β} {a a' : RecordSet α}
  {b b' : RecordSet β}

theorem rel_take? (hbeq : ∀ x y, R x y → ∀ x' y', R x' y' → (x == x') = (y == y')) {x : α} {y : β}
    (hxy : R x y) (h : List.Forall₂ R xs ys) :
    Option.Rel (List.Forall₂ R) (take? x xs) (take? y ys) := by
  induction h with
  | nil => exact .none
  | @cons x' y' xs ys hxy' h ih =>
    rw [take?, take?, hbeq x' y' hxy' x y hxy]
    split
    · exact .some h
    · generalize take? x xs = o, take? y ys = o' at ih
      cases ih with
      | none => exact .none
      | some hrest => exact .some (.cons hxy' hrest)

theorem matchAll_eq (hbeq : ∀ x y, R x y → ∀ x' y', R x' y' → (x == x') = (y == y'))
    (h : List.Forall₂ R xs ys) (h' : List.Forall₂ R xs' ys') :
    matchAll xs xs' = matchAll ys ys' := by
  induction h generalizing xs' ys' with
  | nil => rfl
  | @cons x y xs ys hxy h ih =>
    rw [matchAll, matchAll]
    have htake := rel_take? hbeq hxy h'
    generalize take? x xs' = o, take? y ys' = o' at htake
    cases htake with
    | none => rfl
    | some hrest => exact ih hrest

theorem list_beq_eq (hbeq : ∀ x y, R x y → ∀ x' y', R x' y' → (x == x') = (y == y'))
    (h : List.Forall₂ R xs ys) (h' : List.Forall₂ R xs' ys') : (xs == xs') = (ys == ys') := by
  induction h generalizing xs' ys' with
  | nil => cases h' <;> rfl
  | @cons x y xs ys hxy h ih =>
    cases h' with
    | nil => rfl
    | @cons x' y' _ _ hxy' h' =>
      rw [List.cons_beq_cons, List.cons_beq_cons, hbeq x y hxy x' y' hxy', ih h']

/-- Equality of sets is that of the records they are made of. -/
theorem Pairs.beq_eq (hbeq : ∀ x y, R x y → ∀ x' y', R x' y' → (x == x') = (y == y'))
    (h : Pairs R a b) (h' : Pairs R a' b') : (a == a') = (b == b') := by
  rw [RecordSet.beq_eq, RecordSet.beq_eq, h.ordered, h'.ordered, h.records.length_eq,
    h'.records.length_eq, list_beq_eq hbeq h.records h'.records,
    matchAll_eq hbeq h.records h'.records]

end

/-! ### Evaluation of equal sets -/

section

variable [BEq α] [EquivBEq α] {a b : RecordSet α} {criterion : Option Criterion}

theorem beq_of_pairs (h : Pairs (fun x y => (x == y) = true) a b) : (a == b) = true := by
  cases ha : a.ordered with
  | true => exact (beq_ordered ha (h.ordered ▸ ha)).2 h.records
  | false => exact (beq_iff_rearranges ha (h.ordered ▸ ha)).2 ⟨_, .refl _, h.records⟩

variable [Record α]

theorem beq_materialize_ordered
    (hagrees : ∀ x y : α, (x == y) = true → (Record.resolve x : Lookup).Agrees (Record.resolve y))
    (hcriterion : ∀ c ∈ criterion, ∀ e, .external e ∉ c.atoms) (ha : a.ordered = true)
    (hb : b.ordered = true) (h : (a == b) = true) (i j : ℕ) (ds : List SortDirective) :
    (a.materialize i criterion ds == b.materialize j criterion ds) = true := by
  have hpairs : Pairs (fun x y => (x == y) = true) a b :=
    ⟨ha.trans hb.symm, (beq_ordered ha hb).1 h⟩
  exact beq_of_pairs (hpairs.materialize hagrees hcriterion i j ds)

theorem beq_materialize_unordered
    (hagrees : ∀ x y : α, (x == y) = true → (Record.resolve x : Lookup).Agrees (Record.resolve y))
    (hcriterion : ∀ c ∈ criterion, ∀ e, .external e ∉ c.atoms) (ha : a.ordered = false)
    (hb : b.ordered = false) (h : (a == b) = true) (i j : ℕ) :
    (a.materialize i criterion [] == b.materialize j criterion []) = true := by
  -- a filter does not see the order, so the rearranged records are selected one by one
  obtain ⟨l, hperm, hpairs⟩ := (beq_iff_rearranges ha hb).1 h
  rw [beq_iff_rearranges ((ordered_materialize_nil ..).trans ha)
    ((ordered_materialize_nil ..).trans hb), records_materialize_nil, records_materialize_nil]
  refine ⟨filterBy criterion l, ?_, forall₂_filterBy hagrees hcriterion hpairs⟩
  rw [filterBy_eq, filterBy_eq]
  exact hperm.filter _

end

/-! ### Sets of documents -/

theorem exists_pairs_proper (a : RecordSet Document) (h : ∀ d ∈ a.records, d.Proper) :
    ∃ b : RecordSet ProperDocument, Pairs ProperDocument.Is a b := by
  obtain ⟨xs, hxs⟩ : ∃ xs : List ProperDocument, xs.map Subtype.val = a.records :=
    ⟨a.records.attachWith Document.Proper h, List.attachWith_map_subtype_val ..⟩
  refine ⟨⟨a.identity, a.ordered, xs⟩, rfl, ?_⟩
  rw [← hxs, List.forall₂_map_left_iff]
  exact List.forall₂_same.2 fun _ _ => rfl

/-- Sets of proper documents are evaluated as sets of documents are. -/
theorem materialize_beq_proper {a b : RecordSet Document} {a' b' : RecordSet ProperDocument}
    (ha : Pairs ProperDocument.Is a a') (hb : Pairs ProperDocument.Is b b')
    {criterion : Option Criterion} (hcriterion : ∀ c ∈ criterion, ∀ e, .external e ∉ c.atoms)
    (i j : ℕ) (ds : List SortDirective) :
    (a.materialize i criterion ds == b.materialize j criterion ds) =
      (a'.materialize i criterion ds == b'.materialize j criterion ds) := by
  have hagrees (d : Document) (x : ProperDocument) (h : ProperDocument.Is d x) :
      (Record.resolve d : Lookup).Agrees (Record.resolve x) := by
    obtain rfl := h
    exact Lookup.Agrees.refl _
  exact (ha.materialize hagrees hcriterion i i ds).beq_eq (fun _ _ h _ _ h' => h.beq_eq h')
    (hb.materialize hagrees hcriterion j j ds)

/-- Evaluation respects the equality of sets. Whatever the order of the keys inside the records and,
in unordered sets, of the records themselves, equal sets of proper documents become equal sets:
unordered ones by every criterion that no external predicate is part of, ordered ones by every such
criterion and all directives.

Nothing is assumed of the comparison of records: both sets are sorted by comparisons with the same
outcomes. If these are no total order, the order is that of insertion; another sort might fail. -/
theorem materialize_respects_equality {a b : RecordSet Document} (ha : ∀ d ∈ a.records, d.Proper)
    (hb : ∀ d ∈ b.records, d.Proper) (h : (a == b) = true) {criterion : Option Criterion}
    (hcriterion : ∀ c ∈ criterion, ∀ e, .external e ∉ c.atoms) (i j : ℕ) :
    (a.ordered = false → b.ordered = false →
      (a.materialize i criterion [] == b.materialize j criterion []) = true) ∧
    (a.ordered = true → b.ordered = true → ∀ ds : List SortDirective,
      (a.materialize i criterion ds == b.materialize j criterion ds) = true) := by
  obtain ⟨a', hpairs⟩ := exists_pairs_proper a ha
  obtain ⟨b', hpairs'⟩ := exists_pairs_proper b hb
  have hagrees (x y : ProperDocument) (hxy : (x == y) = true) :
      (Record.resolve x : Lookup).Agrees (Record.resolve y) := (x.equal_of_beq hxy).agrees
  rw [hpairs.beq_eq (fun _ _ h _ _ h' => h.beq_eq h') hpairs'] at h
  rw [hpairs.ordered, hpairs'.ordered]
  refine ⟨fun ha hb => ?_, fun ha hb ds => ?_⟩
  · rw [materialize_beq_proper hpairs hpairs' hcriterion]
    exact beq_materialize_unordered hagrees hcriterion ha hb h i j
  · rw [materialize_beq_proper hpairs hpairs' hcriterion]
    exact beq_materialize_ordered hagrees hcriterion ha hb h i j ds

/-- Records with their keys in another order at two depths, one with a negative zero for a zero,
stored in another order; and as sequences, filtered and sorted. -/
theorem materialize_respects_equality_reordered :
    let inner := Document.object [("x", .float (.zero false)), ("y", .integer 1)]
    let inner' := Document.object [("y", .integer 1), ("x", .float (.zero true))]
    let d := Document.object [("a", inner), ("b", .string "s")]
    let d' := Document.object [("b", .string "s"), ("a", inner')]
    let other := Document.object [("a", .object [("x", .integer (-1))])]
    let c := Criterion.comparison ⟨["a", "x"]⟩ .lessOrEqual (.value (.bool false)) false
    let directives : List SortDirective := [⟨⟨["a", "x"]⟩, false⟩, ⟨⟨["b"]⟩, true⟩]
    let a : RecordSet Document := ⟨0, false, [d, other, d']⟩
    let b : RecordSet Document := ⟨1, false, [other, d', d']⟩
    let a' : RecordSet Document := ⟨2, true, [d, other, d']⟩
    let b' : RecordSet Document := ⟨3, true, [d', other, d]⟩
    (a == b) = true ∧ (a' == b') = true ∧
      (a.materialize 4 (some c) [] == b.materialize 5 (some c) []) = true ∧
      (a'.materialize 6 (some c) directives == b'.materialize 7 (some c) directives) = true := by
  intro inner inner' d d' other c directives a b a' b'
  have hfields {f g : String × Document} (hf : f.2.Proper) (hg : g.2.Proper) :
      ∀ e ∈ [f, g], e.2.Proper := by simp [hf, hg]
  have hinner : inner.Proper := .object (by decide) (hfields (.float rfl) .integer)
  have hinner' : inner'.Proper := .object (by decide) (hfields .integer (.float rfl))
  have hd : d.Proper := .object (by decide) (hfields hinner .string)
  have hd' : d'.Proper := .object (by decide) (hfields .string hinner')
  have hother : other.Proper :=
    .object (by decide) (List.forall_mem_singleton.2
      (.object (by decide) (List.forall_mem_singleton.2 .integer)))
  have ha : ∀ e ∈ [d, other, d'], e.Proper := by simp [hd, hother, hd']
  have hb : ∀ e ∈ [other, d', d'], e.Proper := by simp [hother, hd']
  have hb' : ∀ e ∈ [d', other, d], e.Proper := by simp [hd, hother, hd']
  have hcriterion : ∀ c' ∈ some c, ∀ e, .external e ∉ c'.atoms := by simp [c]
  have hab : (a == b) = true := by decide
  have hab' : (a' == b') = true := by decide
  exact ⟨hab, hab', (materialize_respects_equality ha hb hab hcriterion 4 5).1 rfl rfl,
    (materialize_respects_equality ha hb' hab' hcriterion 6 7).2 rfl rfl directives⟩

end RecordSet

end RecordQuery
