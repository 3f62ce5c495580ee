import RecordQuery.Proofs.Bound
import RecordQuery.Proofs.Scanned

/-! What every predicate that is read satisfies: each compound joins at least two operands, paths
are valid and literals are numbers if they are floating, though they may be infinite. Binding keeps
this. -/

namespace RecordQuery

/-- A literal that is a number if it is a double. -/
def Value.isNaN : Value → Bool
  | float x => x.isNaN
  | _ => false

/-- The operands that are read: valid paths, and literals that are numbers if they are doubles. -/
def Operand.IsRead : Operand → Prop
  | literal v => v.isNaN = false
  | path p => p.isValid = true
  | placeholder _ => True

namespace Predicate

/-- The predicates that are read. -/
structure IsRead (p : Predicate) : Prop where
  branching : p.Branching
  leaves : ∀ o ∈ p.leaves, o.IsRead

theorem IsRead.isValid_of_mem_paths {p : Predicate} (h : p.IsRead) :
    ∀ path ∈ p.paths, path.isValid = true :=
  fun path hpath => h.leaves (.path path) (mem_paths.1 hpath)

end Predicate

theorem KeyPath.isValid_of_parse {s : String} {path : KeyPath} (h : parse s = .ok path) :
    path.isValid = true :=
  (parse_eq_ok_iff.1 h).2

theorem Value.isNaN_ofNumeral (n : Numeral) : (ofNumeral n).isNaN = false := by
  unfold ofNumeral
  split
  · unfold ofInt
    split
    · rfl
    · exact Binary64.isNaN_nearest ..
  · exact Decimal.isNaN_toBinary64 ..

/-! ### Operands -/

theorem Operand.isRead_of_path {s : String} {o : Operand}
    (h : Operand.path <$> KeyPath.parse s = .ok o) : o.IsRead := by
  obtain ⟨path, hpath, rfl⟩ := map_eq_ok_iff.1 h
  exact KeyPath.isValid_of_parse hpath

theorem isRead_literalWords : ∀ w ∈ literalWords, w.2.isNaN = false := by decide

theorem Operand.isRead_of_scanOperand {s rest : List Char} {found : Except FormatError Operand}
    (h : scanOperand s = some (found, rest)) : ∀ o, found = .ok o → o.IsRead := by
  intro o ho
  cases scannedOperand_of_scanOperand h with
  | value | key =>
    obtain rfl := Except.ok.inj ho
    trivial
  | string | numeral =>
    obtain rfl := Except.ok.inj ho
    first | rfl | exact Value.isNaN_ofNumeral _
  | word hword =>
    obtain rfl := Except.ok.inj ho
    obtain ⟨word, hmem, -⟩ := mem_of_scanWord hword
    exact isRead_literalWords _ hmem
  | path => exact isRead_of_path ho

/-! ### Predicates -/

namespace Predicate

theorem isRead_comparison {left right : Operand} (hleft : left.IsRead) (hright : right.IsRead)
    {op : Operator} {foldCase : Bool} : (comparison left op right foldCase).IsRead := by
  refine ⟨.comparison, fun o ho => ?_⟩
  rw [leaves_comparison, List.mem_pair] at ho
  rcases ho with rfl | rfl
  · exact hleft
  · exact hright

theorem isRead_compound_iff {kind : Connective} {ps : List Predicate} :
    (compound kind ps).IsRead ↔ 2 ≤ ps.length ∧ ∀ p ∈ ps, p.IsRead := by
  constructor
  · rintro ⟨⟨⟩ | ⟨hlength, hbranching⟩, hleaves⟩
    refine ⟨hlength, fun p hp => ⟨hbranching p hp, fun o ho => hleaves o ?_⟩⟩
    rw [leaves_compound]
    exact List.mem_flatMap_of_mem hp ho
  · rintro ⟨hlength, hall⟩
    refine ⟨.compound hlength fun p hp => (hall p hp).branching, fun o ho => ?_⟩
    rw [leaves_compound, List.mem_flatMap] at ho
    obtain ⟨p, hp, ho⟩ := ho
    exact (hall p hp).leaves o ho

theorem isRead_not_iff {p : Predicate} : (not p).IsRead ↔ p.IsRead := by
  constructor
  · rintro ⟨⟨⟩ | ⟨⟩ | ⟨hbranching⟩, hleaves⟩
    exact ⟨hbranching, by simpa using hleaves⟩
  · rintro ⟨hbranching, hleaves⟩
    exact ⟨.not hbranching, by simpa using hleaves⟩

theorem isRead_of_scanComparison {s rest : List Char} {found : Read}
    (h : scanComparison s = some (found, rest)) : ∀ p, found = .ok p → p.IsRead := by
  intro p hp
  obtain ⟨left, t, op, foldCase, u, right, hleft, -, hright, rfl⟩ := exists_of_scanComparison h
  simp only [bind_eq_ok_iff] at hp
  obtain ⟨l, rfl, b, rfl, r, rfl, hp⟩ := hp
  obtain rfl := Except.ok.inj hp
  exact isRead_comparison (Operand.isRead_of_scanOperand hleft l rfl)
    (Operand.isRead_of_scanOperand hright r rfl)

/-- What is found is a predicate as they are read, if it is one. -/
theorem invariant_isRead :
    Invariant fun _ found _ => ∀ p, found = .ok p → p.IsRead where
  comparison := isRead_of_scanComparison
  constant _ p hp := by
    obtain rfl := Except.ok.inj hp
    exact ⟨.constant, by simp⟩
  group h _ := h
  negation _ h p hp := by
    obtain ⟨q, hq, rfl⟩ := map_eq_ok_iff.1 hp
    exact isRead_not_iff.2 (h q hq)
  chain hfirst hmore p hp := by
    obtain ⟨ps, hall, rfl⟩ := map_eq_ok_iff.1 hp
    rw [mapM_id_eq_ok_iff] at hall
    refine isRead_compound_iff.2 ⟨?_, fun q hq => ?_⟩
    · have hlength := congrArg List.length hall
      simp only [List.length_cons, List.length_map] at hlength
      omega
    · have hmem : Except.ok q ∈ ps.map (Except.ok : Predicate → Read) := List.mem_map_of_mem hq
      rw [← hall, List.mem_cons] at hmem
      rcases hmem with he | hmem
      · exact hfirst q he.symm
      · obtain ⟨_, _, h⟩ := hmore.forall _ hmem
        exact h q rfl

/-- Everything that is read is. -/
theorem isRead_of_parse {format : String} {p : Predicate} (h : parse format = .ok p) :
    p.IsRead := by
  obtain ⟨rest, hscan, -⟩ := exists_scan_of_parse h
  exact invariant_isRead.finds_scan _ _ _ hscan p rfl

end Predicate

/-! ### Binding -/

theorem Placeholder.isRead_bind {p : Placeholder} {v : Value} {o : Operand}
    (h : p.bind v = .ok o) : o.IsRead := by
  rcases cases_of_bind h with ⟨rfl, hfinite⟩ | ⟨name, path, hpath, rfl⟩
  · cases v with
    | float x => exact Binary64.isNaN_of_isFinite hfinite
    | _ => rfl
  · exact KeyPath.isValid_of_parse hpath

theorem Operand.isRead_of_bindsTo {o o' : Operand} (ho : o.IsRead) (h : o.BindsTo o') :
    o'.IsRead := by
  rcases h.eq_or_bind with ⟨rfl, -⟩ | ⟨p, argument, -, hbind⟩
  · exact ho
  · exact Placeholder.isRead_bind hbind

namespace Predicate

theorem IsRead.bind {p q : Predicate} {arguments : List Value} (hp : p.IsRead)
    (h : p.bind arguments = .ok q) : q.IsRead := by
  have hleafwise := leafwise_bind h
  refine ⟨hleafwise.branching hp.branching, fun o' ho' => ?_⟩
  obtain ⟨o, ho, hbinds⟩ := hleafwise.exists_of_mem_leaves o' ho'
  exact Operand.isRead_of_bindsTo (hp.leaves o ho) hbinds

theorem isRead_of_parseWith {format : String} {arguments : List Value} {p : Predicate}
    (h : parseWith format arguments = .ok p) : p.IsRead := by
  obtain ⟨q, hq, hp⟩ := bind_eq_ok_iff.1 h
  exact (isRead_of_parse hq).bind hp

/-- A predicate of the language that was read, with arguments bound to it or without. -/
def Accepted (p : Predicate) : Prop :=
  (∃ format, parse format = .ok p) ∨ ∃ format arguments, parseWith format arguments = .ok p

theorem Accepted.isRead {p : Predicate} (h : p.Accepted) : p.IsRead := by
  rcases h with ⟨format, hp⟩ | ⟨format, arguments, hp⟩
  · exact isRead_of_parse hp
  · exact isRead_of_parseWith hp

end Predicate

end RecordQuery
