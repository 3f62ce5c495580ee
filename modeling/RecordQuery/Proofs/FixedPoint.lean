import RecordQuery.Proofs.Accepted
import RecordQuery.Proofs.CanonicalText
import RecordQuery.Proofs.StrayMinus

/-! When the canonical text of a predicate that was read is read with the same text again. Reading
keeps the text of every literal but two: a negative infinity leaves a text that is not read, and a
negative zero is read as the integer zero, whose text is shorter by the sign. -/

namespace RecordQuery

/-! ### Negative infinities -/

/-- In a text, at the front of whatever may follow it, a minus sign is stray exactly when a
proposition holds. -/
def Marks (t : List Char) (stray : Prop) : Prop := ∀ rest, Stops rest →
  (hasStrayMinus none (t ++ rest) = true ↔ stray ∨ hasStrayMinus none rest = true)

theorem marks_operand {o : Operand} (h : o.IsRead) :
    Marks o.chars (o = .literal (.float (.infinity true))) := by
  intro rest stop
  by_cases hne : o = .literal (.float (.infinity true))
  · have hchars : o.chars = '-' :: "inf".toList := by
      rw [hne]
      decide
    rw [hchars]
    exact iff_of_true rfl (.inl hne)
  · have hreadable : o.Readable := by
      cases o with
      | literal v => exact fun hv => hne (by rw [hv])
      | path p => exact h
      | placeholder p => trivial
    rw [hasStrayMinus_scanOperand ((Operand.spells_chars hreadable).scanOperand_eq stop)]
    simp [hne]

namespace Marks

variable {t : List Char} {stray : Prop}

theorem append {t u : List Char} {q r : Prop} (ht : Marks t q) (hu : Marks u r)
    {between : List Char} (hneutral : ∀ c ∈ between, isNeutral c = true)
    (hstops : ∀ rest, Stops (between ++ rest)) : Marks (t ++ between ++ u) (q ∨ r) := by
  intro rest stop
  rw [List.append_assoc, List.append_assoc, ht _ (hstops _), hasStrayMinus_append hneutral,
    hu rest stop, or_assoc]

theorem of_neutral (h : ∀ c ∈ t, isNeutral c = true) : Marks t False := by
  intro rest _
  rw [hasStrayMinus_append h, false_or]

/-- The sign NOT and a space, or anything else neutral in front. -/
theorem neutral_append {front : List Char} (hneutral : ∀ c ∈ front, isNeutral c = true)
    (h : Marks t stray) : Marks (front ++ t) stray := by
  intro rest stop
  rw [List.append_assoc, hasStrayMinus_append hneutral, h rest stop]

theorem grouped (h : Marks t stray) (compound : Bool) : Marks (grouped compound t) stray := by
  intro rest stop
  cases compound with
  | false => exact h rest stop
  | true =>
    have hclose : Stops (')' :: rest) := stops_cons rest (by simp)
    simp only [RecordQuery.grouped, if_true, List.cons_append, List.append_assoc, List.nil_append]
    rw [hasStrayMinus_cons (by decide), h _ hclose, hasStrayMinus_cons (by decide)]

end Marks

namespace Predicate

theorem isNeutral_symbol (op : Operator) (foldCase : Bool) :
    ∀ c ∈ ' ' :: (op.symbol.toList ++ (if foldCase then ['[', 'c', ']'] else []) ++ [' ']),
      isNeutral c = true := by
  cases op <;> cases foldCase <;> exact List.all_eq_true.1 (by decide)

theorem marks_join (kind : Connective) {ps : List Predicate} {f : Predicate → List Char}
    {stray : Predicate → Prop} (hne : ps ≠ []) (h : ∀ p ∈ ps, Marks (f p) (stray p)) :
    Marks (kind.join (ps.map f)) (∃ p ∈ ps, stray p) := by
  induction ps with
  | nil => exact absurd rfl hne
  | cons p ps ih =>
    cases ps with
    | nil => simpa [Connective.join] using h p (by simp)
    | cons q qs =>
      have hmore := ih (by simp) fun r hr => h r (List.mem_cons_of_mem p hr)
      have hneutral : ∀ c ∈ ' ' :: (kind.word ++ [' ']), isNeutral c = true := by
        cases kind <;> exact List.all_eq_true.1 (by decide)
      have happend := (h p (by simp)).append hmore hneutral fun rest => stops_space _
      simp only [Connective.join, List.map_cons] at happend ⊢
      rw [List.intercalate_cons_cons]
      simpa using happend

/-- The text of what was read has a stray minus sign exactly when it holds a negative infinity. -/
theorem marks_chars {p : Predicate} (h : p.IsRead) :
    Marks p.chars (.literal (.float (.infinity true)) ∈ p.leaves) := by
  induction p with
  | comparison left op right foldCase =>
    have happend := (marks_operand (h.leaves left (by simp))).append
      (marks_operand (h.leaves right (by simp))) (isNeutral_symbol op foldCase)
      fun rest => stops_space _
    simpa [chars, comparisonText, eq_comm] using happend
  | compound kind operands ih =>
    obtain ⟨hlength, hoperands⟩ := isRead_compound_iff.1 h
    have hjoin := marks_join kind (List.ne_nil_of_length_pos (by omega)) fun p hp =>
      (ih p hp (hoperands p hp)).grouped p.isCompound
    simpa [chars] using hjoin
  | not operand ih =>
    have hoperand := (ih (isRead_not_iff.1 h)).grouped operand.isCompound
    have hneutral : ∀ c ∈ "NOT ".toList, isNeutral c = true := List.all_eq_true.1 (by decide)
    simpa [chars] using hoperand.neutral_append hneutral
  | constant value =>
    have hneutral : ∀ c ∈ (constant value).chars, isNeutral c = true := by
      cases value <;> exact List.all_eq_true.1 (by decide)
    simpa using Marks.of_neutral hneutral

/-- The text of a negative infinity is not read, wherever in a predicate it stands. -/
theorem negative_infinity_not_mem {p q : Predicate} (hp : p.IsRead) (h : parse p.text = .ok q) :
    .literal (.float (.infinity true)) ∉ p.leaves := by
  intro hmem
  have hmarks := (marks_chars hp [] stops_nil).2 (.inl hmem)
  have hnone := hasStrayMinus_of_parse h
  rw [List.append_nil] at hmarks
  rw [text, String.toList_ofList, hmarks] at hnone
  exact absurd hnone (by decide)

end Predicate

/-! ### Negative zeros -/

/-- Reading an operand back keeps its text, unless it is a negative zero. -/
theorem Operand.chars_reread {o : Operand} (hne : o ≠ .literal (.float (.zero true))) :
    o.reread.chars = o.chars := by
  cases o with
  | path p => rfl
  | placeholder p => rfl
  | literal v =>
    have hv : v ≠ .float (.zero true) := fun h => hne (by rw [h])
    cases v with
    | float x =>
      rw [reread]
      split
      · exact Value.chars_denoted hv
      · exact String.ofList_injective (KeyPath.text_ofText x.text)
    | _ => exact Value.chars_denoted hv

theorem Operand.length_chars_reread (o : Operand) : o.reread.chars.length ≤ o.chars.length := by
  by_cases hne : o = .literal (.float (.zero true))
  · rw [hne]
    decide
  · rw [chars_reread hne]

namespace Predicate

theorem chars_mapLeaves {f : Operand → Operand} {p : Predicate}
    (h : ∀ o ∈ p.leaves, (f o).chars = o.chars) : (p.mapLeaves f).chars = p.chars := by
  induction p with
  | comparison left op right foldCase =>
    simp only [mapLeaves_comparison, chars, h left (by simp), h right (by simp)]
  | compound kind operands ih =>
    simp only [mapLeaves_compound, chars, operandChars_eq, List.map_map]
    congr 1
    refine List.map_congr_left fun p hp => ?_
    have hchars := ih p hp fun o ho => h o (by simpa using ⟨p, hp, ho⟩)
    simp [hchars]
  | not operand ih =>
    simp only [mapLeaves_not, chars, isCompound_mapLeaves, ih (by simpa using h)]
  | constant value => rfl

/-- The length of the text that the leaves make up. -/
def leafLength (f : Operand → Operand) (p : Predicate) : ℕ :=
  (p.leaves.map fun o => (f o).chars.length).sum

theorem leafLength_compound (f : Operand → Operand) (kind : Connective) (ps : List Predicate) :
    (compound kind ps).leafLength f = (ps.map (leafLength f)).sum := by
  rw [leafLength, leaves_compound]
  induction ps with
  | nil => rfl
  | cons p ps ih => simp [ih, leafLength]

theorem length_grouped (compound : Bool) (t : List Char) :
    (grouped compound t).length = t.length + if compound then 2 else 0 := by
  cases compound <;> simp [grouped]

theorem length_linked_mapLeaves (f : Operand → Operand) (kind : Connective) (ps : List Predicate)
    (h : ∀ p ∈ ps, (p.mapLeaves f).chars.length + p.leafLength id =
      p.chars.length + p.leafLength f) :
    (Text.linked kind.separator
        (ps.map fun p => grouped p.isCompound (p.mapLeaves f).chars)).length +
        (ps.map (leafLength id)).sum =
      (Text.linked kind.separator (ps.map fun p => grouped p.isCompound p.chars)).length +
        (ps.map (leafLength f)).sum := by
  induction ps with
  | nil => rfl
  | cons p ps ih =>
    have hp := h p (by simp)
    have ih := ih fun q hq => h q (List.mem_cons_of_mem p hq)
    simp only [Text.linked, List.map_cons, List.flatMap_cons, List.length_append, length_grouped,
      List.sum_cons] at ih ⊢
    omega

/-- Replacing leaves lengthens the text by what it lengthens the leaves. -/
theorem length_chars_mapLeaves (f : Operand → Operand) (p : Predicate) :
    (p.mapLeaves f).chars.length + p.leafLength id = p.chars.length + p.leafLength f := by
  induction p with
  | comparison left op right foldCase =>
    simp [chars, comparisonText, leafLength]
    omega
  | compound kind operands ih =>
    have hchars : ((compound kind operands).mapLeaves f).chars =
        kind.join (operands.map fun p => grouped p.isCompound (p.mapLeaves f).chars) := by
      simp [chars, Function.comp_def]
    rw [hchars, chars, operandChars_eq, leafLength_compound, leafLength_compound]
    cases operands with
    | nil => rfl
    | cons p ps =>
      have hp := ih p (by simp)
      have hps := length_linked_mapLeaves f kind ps fun q hq => ih q (List.mem_cons_of_mem p hq)
      simp only [List.map_cons, Connective.join_eq, Text.intercalate_cons, List.length_append,
        length_grouped, List.sum_cons]
      omega
  | not operand ih =>
    simp only [mapLeaves_not, chars, isCompound_mapLeaves, List.length_append, length_grouped]
    simp only [leafLength, leaves_not] at ih ⊢
    omega
  | constant value => rfl

theorem chars_mapLeaves_reread_iff {p : Predicate} :
    (p.mapLeaves Operand.reread).chars = p.chars ↔ .literal (.float (.zero true)) ∉ p.leaves := by
  constructor
  · intro h hmem
    have hlength := p.length_chars_mapLeaves Operand.reread
    have hlt : p.leafLength Operand.reread < p.leafLength id :=
      List.sum_lt_sum _ _ (fun o _ => o.length_chars_reread) ⟨_, hmem, by decide⟩
    rw [h] at hlength
    omega
  · intro h
    exact chars_mapLeaves fun o ho => Operand.chars_reread fun he => h (he ▸ ho)

/-! ### Reading twice -/

theorem IsRead.readable {p : Predicate} (h : p.IsRead)
    (hne : .literal (.float (.infinity true)) ∉ p.leaves) : ∀ o ∈ p.leaves, o.Readable := by
  intro o ho
  cases o with
  | literal v => exact fun hv => hne (hv ▸ ho)
  | path path => exact h.leaves _ ho
  | placeholder p => trivial

/-- The canonical text of what was read is read, and with the same text again, exactly when no
literal is a negative infinity or a negative zero. -/
theorem canonical_text_fixed_iff {format : String} {p : Predicate} (h : parse format = .ok p) :
    (∃ q, parse p.text = .ok q ∧ q.text = p.text) ↔
      .float (.infinity true) ∉ p.literals ∧ .float (.zero true) ∉ p.literals := by
  have hp := isRead_of_parse h
  rw [mem_literals, mem_literals]
  constructor
  · rintro ⟨q, hq, htext⟩
    have hinfinity := negative_infinity_not_mem hp hq
    refine ⟨hinfinity, ?_⟩
    rw [parse_text_eq_reread hp.branching (hp.readable hinfinity)] at hq
    obtain rfl := Except.ok.inj hq
    exact chars_mapLeaves_reread_iff.1 (String.ofList_injective htext)
  · rintro ⟨hinfinity, hzero⟩
    refine ⟨p.mapLeaves Operand.reread,
      parse_text_eq_reread hp.branching (hp.readable hinfinity), ?_⟩
    rw [text, chars_mapLeaves_reread_iff.2 hzero, text]

theorem exists_of_literals {format : String} {vs : List Value}
    (h : (parse format).toOption.map literals = some vs) :
    ∃ p, parse format = .ok p ∧ p.literals = vs := by
  cases hparse : parse format with
  | error e => simp [hparse, Except.toOption] at h
  | ok p => exact ⟨p, rfl, by simpa [hparse, Except.toOption] using h⟩

/-- Both exceptions are read: a number too large for its type, and a zero with a sign. -/
theorem canonical_text_not_fixed :
    (∃ p, parse "a == -1.0e999" = .ok p ∧ ¬ ∃ q, parse p.text = .ok q ∧ q.text = p.text) ∧
      ∃ p, parse "a == -0.0" = .ok p ∧ ¬ ∃ q, parse p.text = .ok q ∧ q.text = p.text := by
  constructor
  · obtain ⟨p, hp, hliterals⟩ := exists_of_literals (by decide +kernel :
      (parse "a == -1.0e999").toOption.map literals = some [.float (.infinity true)])
    refine ⟨p, hp, fun hq => ?_⟩
    have hne := ((canonical_text_fixed_iff hp).1 hq).1
    exact hne (by simp [hliterals])
  · obtain ⟨p, hp, hliterals⟩ := exists_of_literals (by decide +kernel :
      (parse "a == -0.0").toOption.map literals = some [.float (.zero true)])
    refine ⟨p, hp, fun hq => ?_⟩
    have hne := ((canonical_text_fixed_iff hp).1 hq).2
    exact hne (by simp [hliterals])

end Predicate

end RecordQuery
