import RecordQuery.Proofs.Reading

/-! The canonical text of a predicate is read back. Parentheses stand where a compound is an operand
and nowhere else, so kinds and grouping survive; what changes is in the literals alone, which are
read as what their text denotes. -/

namespace RecordQuery.Predicate

/-- The canonical text of a predicate, on its own and as an operand, reads as the predicate. -/
theorem reads_chars {p : Predicate} (branching : p.Branching)
    (readable : ∀ o ∈ p.leaves, o.Readable) :
    Reads p.chars (p.mapLeaves Operand.reread) ∧
      ReadsAsItem (grouped p.isCompound p.chars) (p.mapLeaves Operand.reread) := by
  induction branching with
  | @comparison left op right foldCase =>
    have hitem := readsAsItem_comparison (Operand.spells_chars (readable left (by simp)))
      (Operand.spells_chars (readable right (by simp))) op foldCase
    exact ⟨hitem.reads, hitem⟩
  | @compound kind operands hlength _ ih =>
    have hitems : List.Forall₂ ReadsAsItem (operands.map fun p => grouped p.isCompound p.chars)
        (operands.map (mapLeaves Operand.reread)) := by
      rw [List.forall₂_map_left_iff, List.forall₂_map_right_iff, List.forall₂_same]
      intro p hp
      exact (ih p hp fun o ho => readable o (by simpa using ⟨p, hp, ho⟩)).2
    have hreads := reads_join kind (by simpa using List.ne_nil_of_length_pos (by omega)) hitems
    rw [chain_of_two_le (by simpa using hlength), ← operandChars_eq, ← mapLeaves_compound] at hreads
    exact ⟨hreads, hreads.group⟩
  | @not operand _ ih =>
    have hitem := (ih readable).2.not
    exact ⟨hitem.reads, hitem⟩
  | @constant value =>
    have hitem := readsAsItem_constant value
    exact ⟨hitem.reads, hitem⟩

/-- The canonical text is read as the predicate, with each leaf as its own text is read. -/
theorem parse_text_eq_reread {p : Predicate} (branching : p.Branching)
    (readable : ∀ o ∈ p.leaves, o.Readable) : parse p.text = .ok (p.mapLeaves Operand.reread) :=
  (reads_chars branching readable).1.parse_eq

theorem reread_eq_denoted {o : Operand} (h : ∀ v, o = .literal v → v.isFinite = true) :
    o.reread = o.denoted := by
  cases o with
  | literal v =>
    cases v with
    | float x => exact if_pos (h _ rfl)
    | _ => rfl
  | _ => rfl

theorem readable_of_isFinite {o : Operand} (hpath : ∀ path, o = .path path → path.isValid = true)
    (hliteral : ∀ v, o = .literal v → v.isFinite = true) : o.Readable := by
  cases o with
  | path path => exact hpath path rfl
  | placeholder p => trivial
  | literal v =>
    rintro rfl
    exact absurd (hliteral _ rfl) (by decide)

/-- With finite literals the text reads as the predicate of the denoted ones. -/
theorem reads_chars_denoted {p : Predicate} (branching : p.Branching)
    (valid : ∀ path ∈ p.paths, path.isValid = true)
    (finite : ∀ v ∈ p.literals, v.isFinite = true) :
    Reads p.chars (p.mapLeaves Operand.denoted) ∧
      ReadsAsItem (grouped p.isCompound p.chars) (p.mapLeaves Operand.denoted) := by
  have hfinite (o : Operand) (ho : o ∈ p.leaves) (v : Value) (hv : o = .literal v) :
      v.isFinite = true := finite v (mem_literals.2 (hv ▸ ho))
  have hvalid (o : Operand) (ho : o ∈ p.leaves) (path : KeyPath) (hpath : o = .path path) :
      path.isValid = true := valid path (mem_paths.2 (hpath ▸ ho))
  rw [← mapLeaves_congr fun o ho => reread_eq_denoted (hfinite o ho)]
  exact reads_chars branching fun o ho => readable_of_isFinite (hvalid o ho) (hfinite o ho)

/-- The canonical text of a predicate whose literals are finite is read as the same tree, in which
every literal is the one that its own text denotes. -/
theorem parse_canonical_text {p : Predicate} (branching : p.Branching)
    (valid : ∀ path ∈ p.paths, path.isValid = true)
    (finite : ∀ v ∈ p.literals, v.isFinite = true) :
    parse p.text = .ok (p.mapLeaves Operand.denoted) := by
  have hreads := reads_chars_denoted branching valid finite
  exact hreads.1.parse_eq

/-- A negated group, a string that spells a placeholder, a boolean and a negative zero. -/
theorem parse_canonical_text_nested :
    parse (compound .or [not (compound .and
        [comparison (.path ⟨["a", "b"]⟩) .equal (.literal (.bool true)) true,
          comparison (.literal (.string "\"%@")) .contains (.placeholder .key) false]),
      comparison (.literal (.float (.zero true))) .less (.path ⟨["c"]⟩) false,
      constant false]).text =
    .ok (compound .or [not (compound .and
        [comparison (.path ⟨["a", "b"]⟩) .equal (.literal (.integer 1)) true,
          comparison (.literal (.string "\"%@")) .contains (.placeholder .key) false]),
      comparison (.literal (.integer 0)) .less (.path ⟨["c"]⟩) false,
      constant false]) := by
  have hzero : Value.denoted (.float (.zero true)) = .integer 0 := by decide
  have hbranching (p : Predicate) (hp : p = comparison (.path ⟨["a", "b"]⟩) .equal
      (.literal (.bool true)) true ∨
      p = comparison (.literal (.string "\"%@")) .contains (.placeholder .key) false) :
      p.Branching := by
    rcases hp with rfl | rfl
    · exact .comparison
    · exact .comparison
  rw [parse_canonical_text]
  · simp only [mapLeaves_compound, List.map_cons, mapLeaves_not, mapLeaves_comparison,
      Operand.denoted, hzero]
    rfl
  · refine .compound (by decide) fun p hp => ?_
    simp only [List.mem_cons, List.not_mem_nil, or_false] at hp
    rcases hp with rfl | rfl | rfl
    · exact .not (.compound (by decide) fun p hp => hbranching p (by simpa using hp))
    · exact .comparison
    · exact .constant
  · decide
  · decide

end RecordQuery.Predicate
