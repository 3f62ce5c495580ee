import RecordQuery.Proofs.CriterionText

/-! What equal texts say of criteria. The text of a valid criterion is read as the predicate it
stands for, so criteria of equal texts stand for predicates that are equal but for the literals, and
those differ by no more than the texts of literals hide: a boolean and its integer, a whole double
and the integer with its digits. So they select the same records, unless such an integer is not the
only one equal to its double, or the text of an infinity is taken for a field. -/

namespace RecordQuery

namespace Criterion

/-- The criteria that adopt no predicates but those of the language that were read. -/
inductive Domestic : Criterion → Prop
  | comparison {field op literal foldCase} : Domestic (comparison field op literal foldCase)
  | logical {kind operands} : (∀ c ∈ operands, Domestic c) → Domestic (logical kind operands)
  | native {p} : p.Accepted → Domestic (native p)

theorem mem_literals_logical {kind : Logic} {operands : List Criterion} {v : Value} :
    v ∈ (logical kind operands).literals ↔ ∃ c ∈ operands, v ∈ c.literals := by
  simp only [mem_literals, leaves, atoms_logical, List.flatMap_assoc, List.mem_flatMap]

theorem literals_native (p : Predicate) : (native p).literals = p.literals := by
  simp [literals, leaves, atomLeaves, Predicate.literals]

theorem literals_reading (c : Criterion) : c.reading.literals = c.literals := by
  rw [Predicate.literals, leaves_reading, literals]

/-- The text of a valid criterion, on its own and as an operand, reads as what the criterion stands
for. -/
theorem readsBack_of_validate {c : Criterion} (hdomestic : c.Domestic)
    (hvalid : c.validate = .ok ()) (hfinite : ∀ v ∈ c.literals, v.isFinite = true) :
    c.ReadsBack Operand.denoted := by
  induction hdomestic with
  | @comparison field op literal foldCase =>
    have hcanonical := validate_comparison_eq_ok_iff.1 hvalid
    exact readsBack_comparison (hcanonical (.path field) (by simp [atomLeaves]))
      (hcanonical literal.operand (by simp [atomLeaves]))
  | logical _ ih =>
    rw [validate, validateAll_eq_ok_iff] at hvalid
    exact readsBack_logical fun c hc =>
      ih c hc (hvalid c hc) fun v hv => hfinite v (mem_literals_logical.2 ⟨c, hc, hv⟩)
  | native hp =>
    rw [literals_native] at hfinite
    exact readsBack_native hp.isRead hfinite

theorem evaluate_reading_of_validate {c : Criterion} (hdomestic : c.Domestic)
    (hvalid : c.validate = .ok ()) (look : Lookup) :
    c.reading.evaluate look = .ok (c.selects look) := by
  induction hdomestic with
  | @comparison field op literal foldCase => cases literal <;> rfl
  | logical _ ih =>
    rw [validate, validateAll_eq_ok_iff] at hvalid
    exact evaluate_reading_logical fun c hc => ih c hc (hvalid c hc)
  | native => exact evaluate_reading_native (validate_native_eq_ok_iff.1 hvalid) look

/-- What the text of a valid criterion is read as selects what the criterion selects, if its
literals are settled. -/
theorem evaluate_denoted_reading {c : Criterion} (hdomestic : c.Domestic)
    (hvalid : c.validate = .ok ()) (settled : ∀ v ∈ c.literals, v.Settled) (look : Lookup) :
    (c.reading.mapLeaves Operand.denoted).evaluate look = .ok (c.selects look) := by
  rw [Predicate.evaluate_denoted, evaluate_reading_of_validate hdomestic hvalid]
  rw [literals_reading]
  exact fun v hv => Value.alike_denoted (settled v hv)

/-- Criteria of equal texts stand for predicates whose literals denote the same. -/
theorem denoted_reading_eq_of_beq {a b : Criterion} (ha : a.ReadsBack Operand.denoted)
    (hb : b.ReadsBack Operand.denoted) (heq : (a == b) = true) :
    a.reading.mapLeaves Operand.denoted = b.reading.mapLeaves Operand.denoted := by
  have hchars : a.chars = b.chars := String.ofList_injective (beq_iff.1 heq)
  have hparse := ha.whole.parse_eq
  rw [hchars, hb.whole.parse_eq] at hparse
  exact (Except.ok.inj hparse).symm

theorem selects_eq_of_beq {a b : Criterion} (ha : a.Domestic) (hb : b.Domestic)
    (hva : a.validate = .ok ()) (hvb : b.validate = .ok ()) (hsa : ∀ v ∈ a.literals, v.Settled)
    (hsb : ∀ v ∈ b.literals, v.Settled) (heq : (a == b) = true) (look : Lookup) :
    a.selects look = b.selects look := by
  have hdenoted := denoted_reading_eq_of_beq
    (readsBack_of_validate ha hva fun v hv => (hsa v hv).1)
    (readsBack_of_validate hb hvb fun v hv => (hsb v hv).1) heq
  have hselects := evaluate_denoted_reading ha hva hsa look
  rw [hdenoted, evaluate_denoted_reading hb hvb hsb look] at hselects
  exact (Except.ok.inj hselects).symm

/-! ### Literals that equal texts hide -/

/-- The text of a read predicate without negative infinities is that of the predicate it is read
as, unless it has a negative zero; both are taken over as criteria. -/
theorem native_beq_native_reread {p : Predicate}
    (hzero : .float (.zero true) ∉ p.literals) :
    (native p == native (p.mapLeaves Operand.reread)) = true := by
  rw [Predicate.mem_literals] at hzero
  rw [beq_iff]
  exact congrArg String.ofList (Predicate.chars_mapLeaves_reread_iff.2 hzero).symm

theorem placeholders_mapLeaves_reread {p : Predicate} (h : p.placeholders = []) :
    (p.mapLeaves Operand.reread).placeholders = [] := by
  rw [Predicate.placeholders_eq_nil_iff] at h ⊢
  intro q hq
  rw [Predicate.leaves_mapLeaves, List.mem_map] at hq
  obtain ⟨o, ho, he⟩ := hq
  cases o with
  | placeholder r => exact h r ho
  | path path => exact absurd he (by simp [Operand.reread, Operand.denoted])
  | literal v =>
    cases v with
    | float x =>
      rw [Operand.reread] at he
      split at he
      · exact absurd he (by simp)
      · exact absurd he (by simp)
    | _ => exact absurd he (by simp [Operand.reread, Operand.denoted])

/-- The doubles among the literals of a valid criterion are numbers, though they may be infinite. -/
theorem isNaN_of_validate {c : Criterion} (hdomestic : c.Domestic) (hvalid : c.validate = .ok ()) :
    ∀ v ∈ c.literals, v.isNaN = false := by
  induction hdomestic with
  | comparison =>
    intro v hv
    rw [mem_literals, leaves, atoms_comparison, List.flatMap_singleton] at hv
    have hcanonical := validate_comparison_eq_ok_iff.1 hvalid _ hv
    cases v with
    | float x => exact Binary64.isNaN_of_isFinite hcanonical
    | _ => rfl
  | logical _ ih =>
    rw [validate, validateAll_eq_ok_iff] at hvalid
    intro v hv
    obtain ⟨c, hc, hv⟩ := mem_literals_logical.1 hv
    exact ih c hc (hvalid c hc) v hv
  | native hp =>
    intro v hv
    rw [literals_native, Predicate.mem_literals] at hv
    exact hp.isRead.leaves _ hv

/-- A literal that is not settled makes up, with a field, a criterion that has the text of another
one and does not select the same records. -/
theorem exists_beq_of_not_settled {v : Value} (hnan : v.isNaN = false) (h : ¬ v.Settled)
    (hinfinity : v ≠ .float (.infinity true)) : ∃ (a b : Criterion) (m : Int64),
      (a.Domestic ∧ a.validate = .ok ()) ∧ (b.Domestic ∧ b.validate = .ok ()) ∧
      v ∈ a.literals ∧ (a == b) = true ∧
        a.selects (Record.resolve (Predicate.integerRecord m)) ≠
          b.selects (Record.resolve (Predicate.integerRecord m)) := by
  obtain ⟨format, m, hparse, hmeaning⟩ := Predicate.exists_not_keepsMeaning hnan h
  have hread := Predicate.isRead_of_parse hparse
  have hliterals : (Predicate.fieldIsNot v).literals = [v] := rfl
  have hreparse := Predicate.parse_text_eq_reread hread.branching
    (hread.readable (by rwa [← Predicate.mem_literals, hliterals, List.mem_singleton, eq_comm]))
  have hunbound : (Predicate.fieldIsNot v).placeholders = [] := rfl
  have hunbound' := placeholders_mapLeaves_reread hunbound
  refine ⟨native (Predicate.fieldIsNot v), native _, m,
    ⟨.native (.inl ⟨_, hparse⟩), validate_native_eq_ok_iff.2 hunbound⟩,
    ⟨.native (.inl ⟨_, hreparse⟩), validate_native_eq_ok_iff.2 hunbound'⟩,
    by simp [literals_native, hliterals], native_beq_native_reread ?_, fun heq => hmeaning ?_⟩
  · rw [hliterals, List.mem_singleton]
    rintro rfl
    exact h Value.settled_negative_zero
  · have hselects := evaluate_reading_native hunbound (Record.resolve (Predicate.integerRecord m))
    have hselects' := evaluate_reading_native hunbound' (Record.resolve (Predicate.integerRecord m))
    rw [← heq, ← hselects] at hselects'
    exact ⟨_, hreparse, hselects'⟩

/-- What equality of texts says of selection. Valid criteria of equal texts whose literals are
settled select the same records, whatever their trees. A literal that is not settled, a negative
infinity apart, stands in a valid criterion that has the text of another valid one and differs from
it on a record of one integer. -/
theorem equal_text_selects {a b : Criterion} (ha : a.Domestic) (hb : b.Domestic)
    (hva : a.validate = .ok ()) (hvb : b.validate = .ok ()) (heq : (a == b) = true) :
    ((∀ v ∈ a.literals, v.Settled) → (∀ v ∈ b.literals, v.Settled) →
      ∀ look, a.selects look = b.selects look) ∧
    ∀ v ∈ a.literals, ¬ v.Settled → v ≠ .float (.infinity true) →
      ∃ (c d : Criterion) (m : Int64), (c.Domestic ∧ c.validate = .ok ()) ∧
        (d.Domestic ∧ d.validate = .ok ()) ∧ v ∈ c.literals ∧ (c == d) = true ∧
        c.selects (Record.resolve (Predicate.integerRecord m)) ≠
          d.selects (Record.resolve (Predicate.integerRecord m)) :=
  ⟨fun hsa hsb => selects_eq_of_beq ha hb hva hvb hsa hsb heq,
    fun v hv => exists_beq_of_not_settled (isNaN_of_validate ha hva v hv)⟩

/-- A negated pair of comparisons and the negation of an adopted conjunction, with a boolean in the
place of an integer; and `2 ^ 53`, whose double is also that of the next integer. -/
theorem equal_text_selects_shapes :
    let half := Value.float (.nearest false 1 2)
    let a := logical .not [comparison ⟨["x"]⟩ .equal (.value (.bool true)) false,
      comparison ⟨["y"]⟩ .less (.value half) false]
    let p := Predicate.compound .and
      [.comparison (.path ⟨["x"]⟩) .equal (.literal (.integer 1)) false,
        .comparison (.path ⟨["y"]⟩) .less (.literal half) false]
    let b := logical .not [native p]
    ((a == b) = true ∧ ∀ look, a.selects look = b.selects look) ∧
    ∃ (c d : Criterion) (m : Int64), .float (.ofInt 9007199254740992) ∈ c.literals ∧
      (c == d) = true ∧ c.selects (Record.resolve (Predicate.integerRecord m)) ≠
        d.selects (Record.resolve (Predicate.integerRecord m)) := by
  intro half a p b
  have hspelled : (Binary64.nearest false 1 2).spelledInt? = none := by decide +kernel
  have hhalf : half.Settled := Value.settled_of_spelledInt?_eq_none (by decide +kernel) hspelled
  have hadopted : Predicate.parse p.text = .ok p := by
    have hbranching : p.Branching := .compound (by decide) fun q hq => by
      rcases List.mem_pair.1 hq with rfl | rfl <;> exact .comparison
    rw [Predicate.parse_canonical_text hbranching (by decide) (by decide +kernel)]
    simp [p, half, Operand.denoted, Value.denoted, hspelled]
  have ha : a.Domestic := .logical fun c hc => by
    rcases List.mem_pair.1 hc with rfl | rfl <;> exact .comparison
  have hb : b.Domestic := .logical fun c hc => by
    obtain rfl := List.mem_singleton.1 hc
    exact .native (.inl ⟨_, hadopted⟩)
  have hsa (v : Value) (hv : v ∈ a.literals) : v.Settled := by
    have hliterals : a.literals = [.bool true, half] := rfl
    rw [hliterals, List.mem_pair] at hv
    rcases hv with rfl | rfl
    · exact Value.settled_of_kind (by decide)
    · exact hhalf
  have hsb (v : Value) (hv : v ∈ b.literals) : v.Settled := by
    have hliterals : b.literals = [.integer 1, half] := rfl
    rw [hliterals, List.mem_pair] at hv
    rcases hv with rfl | rfl
    · exact Value.settled_of_kind (by decide)
    · exact hhalf
  have heq : (a == b) = true := by decide +kernel
  have hwhole : ¬ (Value.float (.ofInt 9007199254740992)).Settled := by
    rintro ⟨-, halone⟩
    exact absurd (halone 9007199254740993 9007199254740992 (by decide +kernel) (by decide +kernel))
      (by decide)
  let whole (v : Value) := comparison ⟨["x"]⟩ .equal (.value v) false
  have htext : (whole (.float (.ofInt 9007199254740992)) == whole (.integer 9007199254740992)) =
      true := by decide +kernel
  obtain ⟨c, d, m, -, -, hmem, hcd, hne⟩ :=
    (equal_text_selects .comparison .comparison (by decide +kernel) (by decide +kernel) htext).2
      _ (List.mem_singleton_self _) hwhole (by decide +kernel)
  exact ⟨⟨heq, (equal_text_selects ha hb (by decide +kernel) (by decide +kernel) heq).1 hsa hsb⟩,
    c, d, m, hmem, hcd, hne⟩

end Criterion

end RecordQuery
