import RecordQuery.Criterion.Printer
import RecordQuery.Proofs.Atoms
import RecordQuery.Proofs.Meaning

/-! The canonical text of a criterion is read as a predicate that selects the same records. The
predicate has the shape of the criterion, but a group of one operand is that operand and a group of
none is a constant; adopted predicates are read back in their places. -/

namespace RecordQuery

/-- Operands joined by a connective; none at all are always true or always false. -/
def Predicate.chainOrConstant (kind : Connective) : List Predicate → Predicate
  | [] => constant (kind == .and)
  | ps => chain kind ps

namespace Criterion

/-- The predicate of a group. -/
def logicalReading : Logic → List Predicate → Predicate
  | .and, ps => .chainOrConstant .and ps
  | .or, ps => .chainOrConstant .or ps
  | .not, ps => .not (.chainOrConstant .and ps)

mutual

/-- The predicate that a criterion stands for. Of an external predicate nothing is known. -/
def reading : Criterion → Predicate
  | comparison field op literal foldCase => .comparison (.path field) op literal.operand foldCase
  | logical kind operands => logicalReading kind (readings operands)
  | native p => p
  | external _ => .constant false

def readings : List Criterion → List Predicate
  | [] => []
  | c :: cs => c.reading :: readings cs

end

@[simp] theorem readings_eq (cs : List Criterion) : readings cs = cs.map reading := by
  induction cs <;> simp_all [readings]

/-- A predicate that was read, with arguments bound or without, and waits for none. -/
structure Adopted (p : Predicate) : Prop where
  accepted : (∃ format, Predicate.parse format = .ok p) ∨
    ∃ format arguments, Predicate.parseWith format arguments = .ok p
  no_placeholders : p.placeholders = []

/-- The criteria that are made of comparisons of valid paths, of groups of any size and of adopted
predicates of the language, without any double among the literals. -/
inductive Plain : Criterion → Prop
  | value {field op v foldCase} : field.isValid = true → v.kind ≠ .float →
      Plain (comparison field op (.value v) foldCase)
  | field {field op path foldCase} : field.isValid = true → path.isValid = true →
      Plain (comparison field op (.field path) foldCase)
  | logical {kind operands} : (∀ c ∈ operands, Plain c) → Plain (logical kind operands)
  | native {p} : Adopted p → (∀ v ∈ p.literals, v.kind ≠ .float) → Plain (native p)

/-! ### The text -/

theorem Adopted.isRead {p : Predicate} (h : Adopted p) : p.IsRead :=
  Predicate.Accepted.isRead h.accepted

end Criterion

namespace Predicate

theorem mapLeaves_chainOrConstant (f : Operand → Operand) (kind : Connective)
    (ps : List Predicate) :
    (chainOrConstant kind ps).mapLeaves f = chainOrConstant kind (ps.map (mapLeaves f)) := by
  match ps with
  | [] => rfl
  | [p] => rfl
  | p :: q :: ps => simp [chainOrConstant, chain]

theorem leaves_chainOrConstant (kind : Connective) (ps : List Predicate) :
    (chainOrConstant kind ps).leaves = ps.flatMap leaves := by
  match ps with
  | [] => rfl
  | p :: ps => exact leaves_chain kind (p :: ps)

theorem reads_joinOrConstant (kind : Connective) {ts : List (List Char)} {ps : List Predicate}
    (items : List.Forall₂ ReadsAsItem ts ps) :
    Reads (kind.joinOrConstant ts) (chainOrConstant kind ps) := by
  cases items with
  | nil => exact (readsAsItem_constant _).reads
  | cons ht hts => exact reads_join kind (List.cons_ne_nil _ _) (.cons ht hts)

/-- A negated group needs parentheses of its own unless it has one operand. -/
theorem readsAsItem_logicalChars_not {ts : List (List Char)} {ps : List Predicate}
    (items : List.Forall₂ ReadsAsItem ts ps) :
    ReadsAsItem (Criterion.logicalChars .not ts) (not (chainOrConstant .and ps)) := by
  have hgroup := (reads_joinOrConstant .and items).group.not
  cases items with
  | nil => exact hgroup
  | cons ht hts =>
    cases hts with
    | nil => exact ht.not
    | cons hu hus =>
      have htext (t : List Char) : "NOT ".toList ++ ('(' :: (t ++ [')'])) =
          "NOT (".toList ++ t ++ [')'] := rfl
      rw [htext] at hgroup
      exact hgroup

end Predicate

namespace Criterion

/-- The text of a criterion, on its own and as an operand, reads as its predicate over other
operands. -/
structure ReadsBack (f : Operand → Operand) (c : Criterion) : Prop where
  whole : Predicate.Reads c.chars (c.reading.mapLeaves f)
  operand : Predicate.ReadsAsItem (grouped c.isCompound c.chars) (c.reading.mapLeaves f)

theorem readsBack_logical {f : Operand → Operand} {kind : Logic} {operands : List Criterion}
    (h : ∀ c ∈ operands, c.ReadsBack f) : (logical kind operands).ReadsBack f := by
  have hitems : List.Forall₂ Predicate.ReadsAsItem
      (operands.map fun c => grouped c.isCompound c.chars)
      ((operands.map reading).map (Predicate.mapLeaves f)) := by
    rw [List.map_map, List.forall₂_map_left_iff, List.forall₂_map_right_iff, List.forall₂_same]
    exact fun c hc => (h c hc).operand
  rw [← operandChars_eq] at hitems
  cases kind with
  | and =>
    have hreads := Predicate.reads_joinOrConstant .and hitems
    rw [← Predicate.mapLeaves_chainOrConstant, ← readings_eq] at hreads
    exact ⟨hreads, hreads.group⟩
  | or =>
    have hreads := Predicate.reads_joinOrConstant .or hitems
    rw [← Predicate.mapLeaves_chainOrConstant, ← readings_eq] at hreads
    exact ⟨hreads, hreads.group⟩
  | not =>
    have hitem := Predicate.readsAsItem_logicalChars_not hitems
    rw [← Predicate.mapLeaves_chainOrConstant, ← Predicate.mapLeaves_not, ← readings_eq] at hitem
    exact ⟨hitem.reads, hitem⟩

end Criterion

theorem Operand.Canonical.spells {o : Operand} (h : o.Canonical) : Spells o.chars o.denoted := by
  have hpath (path : KeyPath) (he : o = .path path) : path.isValid = true := by
    subst he
    exact h
  have hliteral (v : Value) (he : o = .literal v) : v.isFinite = true := by
    subst he
    exact h
  rw [← Predicate.reread_eq_denoted hliteral]
  exact Operand.spells_chars (Predicate.readable_of_isFinite hpath hliteral)

namespace Criterion

theorem readsBack_comparison {field : KeyPath} {op : Operator} {literal : Literal} {foldCase : Bool}
    (hfield : field.isValid = true) (hliteral : literal.operand.Canonical) :
    (comparison field op literal foldCase).ReadsBack Operand.denoted := by
  have hchars : literal.operand.chars = literal.chars := by cases literal <;> rfl
  have hspells := hliteral.spells
  rw [hchars] at hspells
  have hitem := Predicate.readsAsItem_comparison (.path hfield) hspells op foldCase
  exact ⟨hitem.reads, hitem⟩

theorem readsBack_native {p : Predicate} (hread : p.IsRead)
    (hfinite : ∀ v ∈ p.literals, v.isFinite = true) : (native p).ReadsBack Operand.denoted := by
  have hreads := Predicate.reads_chars_denoted hread.branching hread.isValid_of_mem_paths hfinite
  exact ⟨hreads.1, hreads.2⟩

/-- The canonical text of a criterion, on its own and as an operand, reads as the predicate that the
criterion stands for. -/
theorem reads_chars {c : Criterion} (h : c.Plain) : c.ReadsBack Operand.denoted := by
  induction h with
  | value hfield hv => exact readsBack_comparison hfield (Value.settled_of_kind hv).1
  | field hfield hpath => exact readsBack_comparison hfield hpath
  | logical _ ih => exact readsBack_logical ih
  | native hp hfloat =>
    exact readsBack_native hp.isRead fun v hv => (Value.settled_of_kind (hfloat v hv)).1

/-! ### The meaning -/

end Criterion

namespace Predicate

/-- A chain is evaluated as its operands are, however many they are. -/
theorem evaluate_chainOrConstant (look : Lookup) (kind : Connective) (ps : List Predicate) :
    (chainOrConstant kind ps).evaluate look =
      match kind with
      | .and => evaluateAll look ps
      | .or => evaluateAny look ps := by
  match ps with
  | [] => cases kind <;> rfl
  | [p] =>
    show p.evaluate look = _
    cases kind with
    | and =>
      simp only [evaluateAll]
      cases p.evaluate look with
      | error e => rfl
      | ok b => cases b <;> rfl
    | or =>
      simp only [evaluateAny]
      cases p.evaluate look with
      | error e => rfl
      | ok b => cases b <;> rfl
  | p :: q :: ps => cases kind <;> rfl

end Predicate

namespace Criterion

theorem evaluateAll_readings {look : Lookup} {cs : List Criterion}
    (h : ∀ c ∈ cs, c.reading.evaluate look = .ok (c.selects look)) :
    Predicate.evaluateAll look (cs.map reading) = .ok (cs.all (selects look)) := by
  induction cs with
  | nil => rfl
  | cons c cs ih =>
    rw [List.map_cons, Predicate.evaluateAll, h c (by simp),
      ih fun d hd => h d (List.mem_cons_of_mem c hd), List.all_cons]
    cases c.selects look <;> rfl

theorem evaluateAny_readings {look : Lookup} {cs : List Criterion}
    (h : ∀ c ∈ cs, c.reading.evaluate look = .ok (c.selects look)) :
    Predicate.evaluateAny look (cs.map reading) = .ok (cs.any (selects look)) := by
  induction cs with
  | nil => rfl
  | cons c cs ih =>
    rw [List.map_cons, Predicate.evaluateAny, h c (by simp),
      ih fun d hd => h d (List.mem_cons_of_mem c hd), List.any_cons]
    cases c.selects look <;> rfl

theorem evaluate_reading_logical {look : Lookup} {kind : Logic} {operands : List Criterion}
    (h : ∀ c ∈ operands, c.reading.evaluate look = .ok (c.selects look)) :
    (logical kind operands).reading.evaluate look = .ok ((logical kind operands).selects look) := by
  rw [reading, readings_eq]
  cases kind with
  | and =>
    rw [logicalReading, Predicate.evaluate_chainOrConstant, selects, allSelect_eq]
    exact evaluateAll_readings h
  | or =>
    rw [logicalReading, Predicate.evaluate_chainOrConstant, selects, anySelects_eq]
    exact evaluateAny_readings h
  | not =>
    rw [logicalReading, Predicate.evaluate, Predicate.evaluate_chainOrConstant, selects,
      allSelect_eq]
    simp only [evaluateAll_readings h]
    rfl

theorem evaluate_reading_native {p : Predicate} (h : p.placeholders = []) (look : Lookup) :
    (native p).reading.evaluate look = .ok ((native p).selects look) := by
  obtain ⟨b, hb⟩ := Predicate.exists_evaluate (Predicate.placeholders_eq_nil_iff.1 h) look
  simp only [reading, selects, hb]

theorem evaluate_reading {c : Criterion} (h : c.Plain) (look : Lookup) :
    c.reading.evaluate look = .ok (c.selects look) := by
  induction h with
  | value | field => rfl
  | logical _ ih => exact evaluate_reading_logical ih
  | native hp _ => exact evaluate_reading_native hp.no_placeholders look

/-- A leaf that is neither a double nor a placeholder. -/
def PlainLeaf (o : Operand) : Prop :=
  (∀ v, o = .literal v → v.kind ≠ .float) ∧ ∀ q, o ≠ .placeholder q

theorem leaves_logicalReading (kind : Logic) (ps : List Predicate) :
    (logicalReading kind ps).leaves = ps.flatMap Predicate.leaves := by
  cases kind <;> simp [logicalReading, Predicate.leaves_chainOrConstant]

/-- The predicate of a criterion has the operands of the criterion. -/
theorem leaves_reading (c : Criterion) : c.reading.leaves = c.leaves := by
  induction c with
  | comparison | native | external => simp [reading, leaves, atomLeaves]
  | logical kind operands ih =>
    rw [reading, readings_eq, leaves_logicalReading, List.flatMap_map, leaves, atoms_logical,
      List.flatMap_assoc]
    exact List.flatMap_congr ih

theorem plainLeaf_of_mem_leaves {c : Criterion} (h : c.Plain) :
    ∀ o ∈ c.reading.leaves, PlainLeaf o := by
  have hpath (path : KeyPath) : PlainLeaf (.path path) := ⟨by simp, by simp⟩
  induction h with
  | @value field op v foldCase _ hv =>
    intro o ho
    rw [reading, Predicate.leaves_comparison, List.mem_pair] at ho
    rcases ho with rfl | rfl
    · exact hpath field
    · exact ⟨fun w hw => Operand.literal.inj hw ▸ hv, by simp [Literal.operand]⟩
  | @field field op path foldCase _ _ =>
    intro o ho
    rw [reading, Predicate.leaves_comparison, List.mem_pair] at ho
    rcases ho with rfl | rfl
    · exact hpath field
    · exact hpath path
  | @logical kind operands _ ih =>
    intro o ho
    rw [reading, readings_eq, leaves_logicalReading, List.flatMap_map, List.mem_flatMap] at ho
    obtain ⟨c, hc, ho⟩ := ho
    exact ih c hc o ho
  | @native p hp hfloat =>
    intro o ho
    refine ⟨fun v hv => hfloat v (Predicate.mem_literals.2 (hv ▸ ho)), fun q hq => ?_⟩
    exact Predicate.placeholders_eq_nil_iff.1 hp.no_placeholders q (hq ▸ ho)

/-- The text of a criterion is read as a predicate without placeholders that selects the records
that the criterion selects. -/
theorem criterion_text_selects {c : Criterion} (h : c.Plain) :
    ∃ p, Predicate.parse c.text = .ok p ∧ p.placeholders = [] ∧
      ∀ look, p.evaluate look = .ok (c.selects look) := by
  have hleaves := plainLeaf_of_mem_leaves h
  refine ⟨_, (reads_chars h).1.parse_eq, ?_, fun look => ?_⟩
  · rw [Predicate.placeholders_eq_nil_iff, Predicate.leaves_mapLeaves]
    intro q hq
    obtain ⟨o, ho, he⟩ := List.mem_map.1 hq
    cases o with
    | placeholder p => exact (hleaves _ ho).2 p rfl
    | literal v => exact absurd he (by simp [Operand.denoted])
    | path path => exact absurd he (by simp [Operand.denoted])
  · rw [Predicate.evaluate_denoted, evaluate_reading h]
    exact fun v hv => Value.alike_denoted (Value.settled_of_kind
      ((hleaves _ (Predicate.mem_literals.1 hv)).1 v rfl))

/-- Groups of one operand, of none and of two, a string that spells placeholders, and an adopted
predicate that is compound. -/
theorem criterion_text_selects_groups :
    ∃ p, Predicate.parse (logical .and
        [logical .or [comparison ⟨["a"]⟩ .contains (.value (.string "%@ %K")) true],
          logical .not [],
          logical .not [native (.compound .or [.constant true, .not (.constant false)]),
            comparison ⟨["b", "c"]⟩ .less (.field ⟨["d"]⟩) false]]).text = .ok p ∧
      p.placeholders = [] ∧ ∀ look, p.evaluate look = .ok (selects look (logical .and
        [logical .or [comparison ⟨["a"]⟩ .contains (.value (.string "%@ %K")) true],
          logical .not [],
          logical .not [native (.compound .or [.constant true, .not (.constant false)]),
            comparison ⟨["b", "c"]⟩ .less (.field ⟨["d"]⟩) false]])) := by
  have hbranching :
      (Predicate.compound .or [.constant true, .not (.constant false)]).Branching := by
    refine .compound (by decide) fun p hp => ?_
    rcases List.mem_pair.1 hp with rfl | rfl
    · exact .constant
    · exact .not .constant
  have hparse := Predicate.parse_text_eq_reread hbranching fun o ho => absurd ho (by simp)
  have hadopted : Adopted (.compound .or [.constant true, .not (.constant false)]) :=
    ⟨.inl ⟨_, hparse⟩, rfl⟩
  refine criterion_text_selects (.logical fun c hc => ?_)
  simp only [List.mem_cons, List.not_mem_nil, or_false] at hc
  rcases hc with rfl | rfl | rfl
  · refine .logical fun c hc => ?_
    obtain rfl := List.mem_singleton.1 hc
    exact .value (by decide) (by decide)
  · exact .logical (by simp)
  · refine .logical fun c hc => ?_
    rcases List.mem_pair.1 hc with rfl | rfl
    · exact .native hadopted (by simp [Predicate.literals])
    · exact .field (by decide) (by decide)

end Criterion

end RecordQuery
