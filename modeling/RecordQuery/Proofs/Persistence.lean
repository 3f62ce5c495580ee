import RecordQuery.Persisted.Criterion
import RecordQuery.Proofs.EqualText
import RecordQuery.Proofs.Encodings

/-! A persisted criterion is restored. Comparisons and groups come back as they were, adopted
predicates as what their texts are read as, which is compound exactly when they are and is written
with the same text. So the text of a criterion and its persisted form are kept, and without doubles
in adopted predicates the records that it selects are the same. -/

namespace RecordQuery

theorem Literal.written_encode (literal : Literal) : literal.encode.Written := by
  cases literal with
  | value v => exact Json.written_variant v.written_encode
  | field path => exact Json.written_variant path.written_encode

theorem Literal.decode_encode {literal : Literal}
    (hfinite : ∀ v, literal = .value v → v.isFinite = true)
    (hdouble : ∀ x, literal = .value (.float x) → x.Persists) {room : ℕ}
    (hroom : literal.encode.depth ≤ room) : decode room literal.encode = some literal := by
  cases literal with
  | value v =>
    obtain ⟨room, rfl, hvalue⟩ := Json.exists_room_of_variant hroom
    have hvalue := Value.decode_encode (hfinite v rfl) (fun x hx => hdouble x (hx ▸ rfl)) hvalue
    simp [decode, encode, hvalue]
  | field path =>
    obtain ⟨room, rfl, hpath⟩ := Json.exists_room_of_variant hroom
    simp [decode, encode, KeyPath.decode_encode hpath]

theorem Logic.decode_encode (kind : Logic) (room : ℕ) : decode room kind.encode = some kind := by
  cases kind <;> simp [decode, encode, name]

/-- Only a negative zero is written with another text than what its text denotes. -/
theorem Predicate.chars_mapLeaves_denoted {p : Predicate} (h : .float (.zero true) ∉ p.literals) :
    (p.mapLeaves Operand.denoted).chars = p.chars := by
  refine chars_mapLeaves fun o ho => ?_
  cases o with
  | literal v => exact Value.chars_denoted fun hv => h (mem_literals.2 (hv ▸ ho))
  | path | placeholder => rfl

namespace Criterion

@[simp] theorem encodeAll_eq (cs : List Criterion) : encodeAll cs = cs.map encode := by
  induction cs <;> simp_all [encodeAll]

/-- Whatever a criterion is made of, it is encoded as JSON that is read back. -/
theorem written_encode (c : Criterion) : c.encode.Written := by
  induction c with
  | comparison field op literal foldCase =>
    refine Json.written_variant (.struct ?_)
    simp only [List.forall_mem_cons, List.not_mem_nil, false_imp_iff, implies_true, and_true]
    exact ⟨field.written_encode, op.written_encode, literal.written_encode, .bool⟩
  | logical kind operands ih =>
    refine Json.written_variant (.struct ?_)
    simp only [List.forall_mem_cons, List.not_mem_nil, false_imp_iff, implies_true, and_true,
      encodeAll_eq]
    exact ⟨.text, .array (List.forall_mem_map.2 ih)⟩
  | native | external => exact Json.written_variant .text

theorem parse?_persisted (c : Criterion) : Json.parse? c.persisted = some c.encode :=
  Json.parse?_print c.written_encode

/-! ### What is restored -/

mutual

/-- The same tree, in which the literals of adopted predicates are what their texts denote. -/
def restored : Criterion → Criterion
  | logical kind operands => logical kind (restoredAll operands)
  | native p => native (p.mapLeaves Operand.denoted)
  | comparison field op literal foldCase => comparison field op literal foldCase
  | external e => external e

def restoredAll : List Criterion → List Criterion
  | [] => []
  | c :: cs => c.restored :: restoredAll cs

end

@[simp] theorem restoredAll_eq (cs : List Criterion) : restoredAll cs = cs.map restored := by
  induction cs <;> simp_all [restoredAll]

/-- The criteria that are persisted faithfully: comparisons of any paths with finite values, groups
of any size, and predicates of the language that were read and whose literals are finite and no
negative zeros. -/
inductive Durable : Criterion → Prop
  | value {field op v foldCase} : v.isFinite = true →
      Durable (comparison field op (.value v) foldCase)
  | field {field op path foldCase} : Durable (comparison field op (.field path) foldCase)
  | logical {kind operands} : (∀ c ∈ operands, Durable c) → Durable (logical kind operands)
  | native {p} : p.Accepted → (∀ v ∈ p.literals, v.isFinite = true ∧ v ≠ .float (.zero true)) →
      Durable (native p)

theorem decode_comparison {field : KeyPath} {op : Operator} {literal : Literal} {foldCase : Bool}
    (hliteral : ∀ room, literal.encode.depth ≤ room →
      Literal.decode room literal.encode = some literal) {room : ℕ}
    (hroom : (comparison field op literal foldCase).encode.depth ≤ room) :
    decode room (comparison field op literal foldCase).encode =
      some (comparison field op literal foldCase) := by
  rw [encode] at hroom ⊢
  obtain ⟨room, rfl, hcontent⟩ := Json.exists_room_of_variant hroom
  obtain ⟨room, rfl, hparts⟩ := Json.exists_room_of_struct hcontent
  have hmembers : (Json.struct [("field", field.encode), ("operator", op.encode),
      ("value", literal.encode), ("case_insensitive", .bool foldCase)]).members? (room + 1)
        ["field", "operator", "value", "case_insensitive"] =
      some [field.encode, op.encode, literal.encode, .bool foldCase] :=
    Json.members?_struct room (by simp)
  have hfield := KeyPath.decode_encode (hparts ("field", field.encode) (by simp))
  have hvalue := hliteral room (hparts ("value", literal.encode) (by simp))
  unfold decode
  simp [decodeComparison, hmembers, hfield, hvalue, Operator.decode_encode, Json.bool?]

theorem decode_logical {kind : Logic} {operands : List Criterion}
    (hoperands : ∀ c ∈ operands, ∀ room, c.encode.depth ≤ room →
      decode room c.encode = some c.restored) {room : ℕ}
    (hroom : (logical kind operands).encode.depth ≤ room) :
    decode room (logical kind operands).encode = some (logical kind operands).restored := by
  rw [encode, encodeAll_eq] at hroom ⊢
  obtain ⟨room, rfl, hcontent⟩ := Json.exists_room_of_variant hroom
  obtain ⟨room, rfl, hparts⟩ := Json.exists_room_of_struct hcontent
  obtain ⟨room, rfl, hitems⟩ :=
    Json.exists_room_of_array (hparts ("operands", .array (operands.map encode)) (by simp))
  have hmembers : (Json.struct [("kind", kind.encode),
      ("operands", .array (operands.map encode))]).members? (room + 2) ["kind", "operands"] =
      some [kind.encode, .array (operands.map encode)] :=
    Json.members?_struct (room + 1) (by simp)
  have hall : (operands.map encode).mapM (decode room) = some (operands.map restored) :=
    mapM_map_eq_some fun c hc => hoperands c hc room (hitems _ (List.mem_map_of_mem hc))
  unfold decode
  simp [hmembers, hall, Logic.decode_encode, restored]

theorem decode_native {p : Predicate} (hread : p.IsRead)
    (hfinite : ∀ v ∈ p.literals, v.isFinite = true) {room : ℕ}
    (hroom : (native p).encode.depth ≤ room) :
    decode room (native p).encode = some (native p).restored := by
  rw [encode] at hroom ⊢
  obtain ⟨room, rfl, -⟩ := Json.exists_room_of_variant hroom
  have hparse := Predicate.parse_canonical_text hread.branching hread.isValid_of_mem_paths hfinite
  unfold decode
  simp [decodeAdopted, hparse, restored]

/-- What a criterion is encoded as is decoded wherever there is room for it. -/
theorem decode_encode {c : Criterion} (h : c.Durable)
    (hdoubles : ∀ field op x foldCase,
      comparison field op (.value (.float x)) foldCase ∈ c.atoms → x.Persists) {room : ℕ}
    (hroom : c.encode.depth ≤ room) : decode room c.encode = some c.restored := by
  induction h generalizing room with
  | @value field op v foldCase hfinite =>
    refine decode_comparison (fun room hroom => Literal.decode_encode ?_ ?_ hroom) hroom
    · rintro _ ⟨⟩
      exact hfinite
    · rintro x ⟨⟩
      exact hdoubles field op x foldCase (by simp)
  | field =>
    exact decode_comparison (fun room hroom => Literal.decode_encode (by simp) (by simp) hroom)
      hroom
  | logical _ ih =>
    refine decode_logical (fun c hc room hroom => ih c hc ?_ hroom) hroom
    exact fun field op x foldCase hmem => hdoubles field op x foldCase (atoms_subset hc hmem)
  | native hp hliterals =>
    exact decode_native hp.isRead (fun v hv => (hliterals v hv).1) hroom

/-! ### What is kept -/

@[simp] theorem isCompound_restored (c : Criterion) : c.restored.isCompound = c.isCompound := by
  cases c <;> simp [restored, isCompound]

theorem Durable.chars_restored {c : Criterion} (h : c.Durable) : c.restored.chars = c.chars := by
  induction h with
  | value | field => rfl
  | @logical kind operands _ ih =>
    have hoperands : operandChars (operands.map restored) = operandChars operands := by
      rw [operandChars_eq, operandChars_eq, List.map_map]
      refine List.map_congr_left fun c hc => ?_
      rw [Function.comp_apply, isCompound_restored, ih c hc]
    rw [restored, restoredAll_eq, chars, chars, hoperands]
  | native _ hliterals =>
    exact Predicate.chars_mapLeaves_denoted fun hmem => (hliterals _ hmem).2 rfl

theorem Durable.encode_restored {c : Criterion} (h : c.Durable) :
    c.restored.encode = c.encode := by
  induction h with
  | value | field => rfl
  | @logical kind operands _ ih =>
    have hoperands : encodeAll (operands.map restored) = encodeAll operands := by
      rw [encodeAll_eq, encodeAll_eq, List.map_map]
      exact List.map_congr_left ih
    rw [restored, restoredAll_eq, encode, encode, hoperands]
  | native hp hliterals =>
    have hchars := (native hp hliterals).chars_restored
    rw [restored, chars, chars] at hchars
    rw [restored, encode, encode, Predicate.text, Predicate.text, hchars]

/-- Restoring does not change what is selected where no adopted predicate holds a double. -/
theorem selects_restored {c : Criterion}
    (hfloat : ∀ p, native p ∈ c.atoms → ∀ v ∈ p.literals, v.kind ≠ .float) (look : Lookup) :
    c.restored.selects look = c.selects look := by
  induction c with
  | comparison | external => rfl
  | logical kind operands ih =>
    rw [restored, restoredAll_eq]
    refine selects_logical_congr ?_ kind
    rw [List.map_map]
    exact List.map_congr_left fun c hc => ih c hc fun p hp => hfloat p (atoms_subset hc hp)
  | native p =>
    have halike (v : Value) (hv : v ∈ p.literals) : v.denoted.Alike v :=
      Value.alike_denoted (Value.settled_of_kind (hfloat p (by simp) v hv))
    rw [restored, selects, selects, Predicate.evaluate_denoted halike]

/-- Persisting and restoring a criterion keeps its text and its persisted form, and the records it
selects unless a predicate that it has adopted holds a double. -/
theorem restore_persisted {c : Criterion} (h : c.Durable)
    (hdoubles : ∀ field op x foldCase,
      comparison field op (.value (.float x)) foldCase ∈ c.atoms → x.Persists) :
    ∃ c', (∀ room, c.encode.depth ≤ room → Json.parse? c.persisted >>= decode room = some c') ∧
      (c.encode.depth ≤ persistedRoom → restore? c.persisted = some c') ∧
      (c' == c) = true ∧ c'.persisted = c.persisted ∧
      ((∀ p, native p ∈ c.atoms → ∀ v ∈ p.literals, v.kind ≠ .float) →
        ∀ look, c'.selects look = c.selects look) := by
  have hrestored (room : ℕ) (hroom : c.encode.depth ≤ room) :
      Json.parse? c.persisted >>= decode room = some c.restored := by
    rw [parse?_persisted]
    exact decode_encode h hdoubles hroom
  refine ⟨c.restored, hrestored, hrestored persistedRoom, ?_, ?_, selects_restored⟩
  · rw [beq_iff, text, text, h.chars_restored]
  · rw [persisted, persisted, h.encode_restored]

/-- Steps and a string that are spelled with escapes, a double, an empty group, and an adopted
disjunction with a boolean bound into it, which is restored as an integer. -/
theorem restore_persisted_nested :
    let adopted := Predicate.compound .or
      [.comparison (.path ⟨["x"]⟩) .equal (.literal (.bool true)) false,
        .comparison (.literal (.string "a")) .less (.path ⟨["y"]⟩) true]
    let c := logical .not
      [comparison ⟨["", "\"\n"]⟩ .contains (.value (.string "a\\\t")) true,
        comparison ⟨["z"]⟩ .less (.value (.float (.nearest false 1 2))) false,
        logical .or [], native adopted]
    ∃ c', restore? c.persisted = some c' ∧ (c' == c) = true ∧ c'.persisted = c.persisted ∧
      ∀ look, c'.selects look = c.selects look := by
  intro adopted c
  let format := Predicate.compound .or
    [.comparison (.path ⟨["x"]⟩) .equal (.placeholder .value) false,
      .comparison (.literal (.string "a")) .less (.path ⟨["y"]⟩) true]
  have hbranching : format.Branching := .compound (by decide) fun p hp => by
    rcases List.mem_pair.1 hp with rfl | rfl <;> exact .comparison
  have hparse : Predicate.parse format.text = .ok format := by
    rw [Predicate.parse_canonical_text hbranching (by decide) (by decide)]
    simp [format, Operand.denoted, Value.denoted]
  have hadopted : Predicate.parseWith format.text [.bool true] = .ok adopted := by
    rw [Predicate.parseWith, hparse]
    rfl
  have hliterals : adopted.literals = [.bool true, .string "a"] := rfl
  have hatoms : c.atoms = [comparison ⟨["", "\"\n"]⟩ .contains (.value (.string "a\\\t")) true,
      comparison ⟨["z"]⟩ .less (.value (.float (.nearest false 1 2))) false, native adopted] := rfl
  have hdurable : c.Durable := .logical fun d hd => by
    simp only [List.mem_cons, List.not_mem_nil, or_false] at hd
    rcases hd with rfl | rfl | rfl | rfl
    · exact .value rfl
    · exact .value (by decide +kernel)
    · exact .logical (by simp)
    · refine .native (.inr ⟨_, _, hadopted⟩) ?_
      rw [hliterals]
      decide
  have hdoubles : ∀ field op x foldCase,
      comparison field op (.value (.float x)) foldCase ∈ c.atoms → x.Persists := by
    rw [hatoms]
    intro field op x foldCase hmem
    simp only [List.mem_cons, comparison.injEq, Literal.value.injEq, reduceCtorEq, false_and,
      and_false, Value.float.injEq, List.not_mem_nil, or_self, or_false, false_or] at hmem
    obtain ⟨-, -, rfl, -⟩ := hmem
    show _ = _
    decide +kernel
  obtain ⟨c', -, hrestore, hbeq, hpersisted, hselects⟩ := restore_persisted hdurable hdoubles
  refine ⟨c', hrestore (by decide +kernel), hbeq, hpersisted, hselects fun p hp => ?_⟩
  simp only [hatoms, List.mem_cons, reduceCtorEq, native.injEq, List.not_mem_nil, or_false,
    false_or] at hp
  rw [hp, hliterals]
  decide

end Criterion

end RecordQuery
