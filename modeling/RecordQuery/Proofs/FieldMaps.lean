import Mathlib.Data.List.Forall2
import RecordQuery.Proofs.Admission
import RecordQuery.Proofs.EqualText

/-! Maps of fields in all their forms: a list of entries, a format that asks for one key and one
value after the other, and the documents that describe these. The format is read as a conjunction of
placeholders, and the arguments make of it the predicate that the criterion of the list stands for.
So all forms have one text and select the same records. -/

namespace RecordQuery

namespace Predicate

/-- The field holds the value. -/
def holding (field : KeyPath × Value) : Predicate :=
  comparison (.path field.1) .equal (.literal field.2) false

/-- A key that is yet to come holds a value that is yet to come. -/
def awaiting : Predicate := comparison (.placeholder .key) .equal (.placeholder .value) false

end Predicate

namespace Criterion

/-- The field holds the value. -/
def holding (field : KeyPath × Value) : Criterion :=
  comparison field.1 .equal (.value field.2) false

end Criterion

namespace CriterionInput

/-- The entry is a key that is read as the path of the field, and the value of the field. -/
def Names (entry : String × Value) (field : KeyPath × Value) : Prop :=
  KeyPath.parse entry.1 = .ok field.1 ∧ entry.2 = field.2

/-- The document is the value of the entry, under the same key. -/
def Describes (described : String × Document) (entry : String × Value) : Prop :=
  described.1 = entry.1 ∧ described.2.scalar? = some entry.2

/-- A format for a map of `n` fields. -/
def mapFormat (n : ℕ) : String := " AND ".intercalate (List.replicate n "%K == %@")

/-- Keys and values in the order in which the format asks for them. -/
def mapArguments (entries : List (String × Value)) : List Value :=
  entries.flatMap fun (key, v) => [.string key, v]

/-- The input is accepted as a criterion with this text that selects these records. -/
def StandsFor (input : Except ScopeError CriterionInput) (text : String)
    (selects : Lookup → Bool) : Prop :=
  ∃ c, input >>= normalize = .ok (some c) ∧ c.text = text ∧ ∀ look, c.selects look = selects look

end CriterionInput

open CriterionInput (Names Describes mapFormat mapArguments StandsFor)

variable {entries : List (String × Value)} {fields : List (KeyPath × Value)}

/-! ### The list of entries -/

theorem Criterion.validate_holding {field : KeyPath × Value} (hpath : field.1.isValid = true)
    (hvalue : field.2.isFinite = true) : (holding field).validate = .ok () := by
  refine validate_comparison_eq_ok_iff.2 fun o ho => ?_
  rcases List.mem_pair.1 ho with rfl | rfl
  · exact hpath
  · exact hvalue

namespace CriterionInput

theorem isValid_of_names (h : List.Forall₂ Names entries fields) :
    ∀ f ∈ fields, f.1.isValid = true := by
  induction h with
  | nil => simp
  | cons hname _ ih =>
    rw [List.forall_mem_cons]
    exact ⟨KeyPath.isValid_of_parse hname.1, ih⟩

/-- Distinct paths that were not seen before are taken one by one, and count as seen behind them. -/
theorem equalities_append (hnames : List.Forall₂ Names entries fields)
    (hdistinct : (fields.map Prod.fst).Nodup) {seen : List KeyPath}
    (hseen : ∀ f ∈ fields, f.1 ∉ seen) (rest : List (String × Value)) :
    equalities seen (entries ++ rest) = (fields.map Criterion.holding ++ ·) <$>
      equalities ((fields.map Prod.fst).reverse ++ seen) rest := by
  induction hnames generalizing seen with
  | nil => exact (id_map _).symm
  | @cons entry field entries fields hname _ ih =>
    obtain ⟨hpath, hvalue⟩ := hname
    rw [List.map_cons, List.nodup_cons] at hdistinct
    rw [List.forall_mem_cons] at hseen
    -- the path counts as seen from here on, and the others differ from it
    have hrest : ∀ f ∈ fields, f.1 ∉ field.1 :: seen := by
      intro f hf
      rw [List.mem_cons, not_or]
      exact ⟨fun he => hdistinct.1 (List.mem_map.2 ⟨f, hf, he⟩), hseen.2 f hf⟩
    simp only [List.cons_append, equalities, hpath, if_neg hseen.1, ih hdistinct.2 hrest, hvalue,
      Functor.map_map, List.map_cons, List.reverse_cons, List.append_assoc, List.nil_append]
    rfl

theorem equalities_eq (hnames : List.Forall₂ Names entries fields)
    (hdistinct : (fields.map Prod.fst).Nodup) :
    equalities [] entries = .ok (fields.map Criterion.holding) := by
  have h := @equalities_append _ _ hnames hdistinct [] (by simp) []
  rw [List.append_nil] at h
  rw [h]
  exact congrArg Except.ok (List.append_nil _)

theorem normalize_fields_eq (hne : entries ≠ []) : (CriterionInput.fields entries).normalize =
    (do checked (.logical .and (← equalities [] entries))) := by
  cases entries with
  | nil => exact absurd rfl hne
  | cons entry entries => rfl

theorem normalize_fields (hne : entries ≠ []) (hnames : List.Forall₂ Names entries fields)
    (hdistinct : (fields.map Prod.fst).Nodup) (hfinite : ∀ f ∈ fields, f.2.isFinite = true) :
    (CriterionInput.fields entries).normalize =
      .ok (some (.logical .and (fields.map Criterion.holding))) := by
  have hvalid : (Criterion.logical .and (fields.map Criterion.holding)).validate = .ok () := by
    rw [Criterion.validate, Criterion.validateAll_eq_ok_iff, List.forall_mem_map]
    exact fun f hf => Criterion.validate_holding (isValid_of_names hnames f hf) (hfinite f hf)
  rw [normalize_fields_eq hne, equalities_eq hnames hdistinct]
  exact checked_eq_ok_iff.2 ⟨hvalid, rfl⟩

end CriterionInput

/-! ### The format with its arguments -/

namespace Predicate

theorem parse_mapFormat {n : ℕ} (hn : n ≠ 0) :
    parse (mapFormat n) = .ok (chain .and (List.replicate n awaiting)) := by
  have hitem : ReadsAsItem "%K == %@".toList awaiting :=
    readsAsItem_comparison (.placeholder .key) (.placeholder .value) .equal false
  have hitems (m : ℕ) : List.Forall₂ ReadsAsItem (List.replicate m "%K == %@".toList)
      (List.replicate m awaiting) := by
    induction m with
    | zero => exact .nil
    | succ m ih => exact .cons hitem ih
  have htext : mapFormat n =
      String.ofList (Connective.and.join (List.replicate n "%K == %@".toList)) := by
    apply String.toList_injective
    simp [mapFormat, Connective.join, Connective.word]
  rw [htext]
  exact (reads_join .and (by simpa using hn) (hitems n)).parse_eq

theorem bindFrom_awaiting {entry : String × Value} {field : KeyPath × Value}
    (hname : Names entry field) (hfinite : field.2.isFinite = true) (rest : List Value) :
    awaiting.bindFrom (.string entry.1 :: entry.2 :: rest) = .ok (holding field, rest) := by
  obtain ⟨hpath, hvalue⟩ := hname
  have hliteral : Placeholder.value.bind field.2 = .ok (.literal field.2) := by
    cases hv : field.2 with
    | float x =>
      rw [hv] at hfinite
      exact if_pos hfinite
    | _ => rfl
  have hkey (rest : List Value) : (Operand.placeholder .key).bind (.string entry.1 :: rest) =
      .ok (.path field.1, rest) :=
    map_eq_ok_iff.2 ⟨_, map_eq_ok_iff.2 ⟨_, hpath, rfl⟩, rfl⟩
  have harg : (Operand.placeholder .value).bind (entry.2 :: rest) =
      .ok (.literal field.2, rest) :=
    map_eq_ok_iff.2 ⟨_, hvalue ▸ hliteral, rfl⟩
  exact bind_eq_ok_iff.2 ⟨_, hkey _, bind_eq_ok_iff.2 ⟨_, harg, rfl⟩⟩

/-- The arguments are taken two by two. -/
theorem bindAllFrom_awaiting (hnames : List.Forall₂ Names entries fields)
    (hfinite : ∀ f ∈ fields, f.2.isFinite = true) (rest : List Value) :
    bindAllFrom (List.replicate entries.length awaiting) (mapArguments entries ++ rest) =
      .ok (fields.map holding, rest) := by
  induction hnames with
  | nil => rfl
  | @cons entry field entries fields hname _ ih =>
    rw [List.forall_mem_cons] at hfinite
    have hfirst := bindFrom_awaiting hname hfinite.1 (mapArguments entries ++ rest)
    exact bind_eq_ok_iff.2 ⟨_, hfirst, bind_eq_ok_iff.2 ⟨_, ih hfinite.2, rfl⟩⟩

theorem bindFrom_chain (kind : Connective) {ps qs : List Predicate} {arguments rest : List Value}
    (h : bindAllFrom ps arguments = .ok (qs, rest)) :
    (chain kind ps).bindFrom arguments = .ok (chain kind qs, rest) := by
  match ps with
  | [] =>
    obtain ⟨rfl, rfl⟩ := Prod.mk.inj (Except.ok.inj h)
    rfl
  | [p] =>
    obtain ⟨⟨q, arguments'⟩, hq, h⟩ := bind_eq_ok_iff.1 h
    obtain ⟨rfl, rfl⟩ := Prod.mk.inj (Except.ok.inj h)
    exact hq
  | p :: p' :: ps =>
    -- binding keeps the number of operands, so what comes out is a compound again
    obtain ⟨pairs, hps, rfl, -⟩ := leafwise_bindAllFrom (fun _ _ => leafwise_bindFrom) h
    have hlength : 2 ≤ (pairs.map Prod.snd).length := by
      rw [List.length_map, ← List.length_map Prod.fst, ← hps]
      simp
    rw [chain_of_two_le hlength]
    exact bind_eq_ok_iff.2 ⟨_, h, rfl⟩

theorem parseWith_mapFormat (hne : entries ≠ []) (hnames : List.Forall₂ Names entries fields)
    (hfinite : ∀ f ∈ fields, f.2.isFinite = true) :
    parseWith (mapFormat entries.length) (mapArguments entries) =
      .ok (chain .and (fields.map holding)) := by
  have hparse := parse_mapFormat (n := entries.length) (by simpa using hne)
  have hcount : (chain .and (List.replicate entries.length awaiting)).placeholderCount =
      (mapArguments entries).length := by
    have hawaiting : awaiting.placeholders.length = 2 := rfl
    rw [placeholderCount, placeholders_eq, leaves_chain, List.flatMap_assoc]
    simp [← placeholders_eq, hawaiting, mapArguments]
  have hbind := bindFrom_chain .and (bindAllFrom_awaiting hnames hfinite [])
  rw [List.append_nil] at hbind
  exact bind_eq_ok_iff.2 ⟨_, hparse, by rw [bind, if_pos hcount, hbind]; rfl⟩

/-- Operands that are not compound stand in a chain as they are. -/
theorem chars_chain (kind : Connective) {ps : List Predicate} (hne : ps ≠ [])
    (h : ∀ p ∈ ps, p.isCompound = false) : (chain kind ps).chars = kind.join (ps.map chars) := by
  have hoperands : operandChars ps = ps.map chars := by
    rw [operandChars_eq]
    exact List.map_congr_left fun p hp => by rw [h p hp]; rfl
  match ps with
  | [] => exact absurd rfl hne
  | [p] => simp [Connective.join]
  | p :: q :: ps => rw [chain_of_two_le (by simp), chars, hoperands]

end Predicate

/-! ### Text and meaning -/

namespace Criterion

theorem chars_holding (hne : fields ≠ []) : (logical .and (fields.map holding)).chars =
    Connective.and.join (fields.map fun f => comparisonText f.1.chars .equal false f.2.chars) := by
  obtain ⟨field, fields, rfl⟩ := List.exists_cons_of_ne_nil hne
  rw [chars, operandChars_eq, List.map_map]
  rfl

theorem chars_native_holding (hne : fields ≠ []) :
    (native (.chain .and (fields.map Predicate.holding))).chars = Connective.and.join
      (fields.map fun f => comparisonText f.1.chars .equal false f.2.chars) := by
  rw [chars, Predicate.chars_chain .and (by simpa using hne), List.map_map]
  · rfl
  · rw [List.forall_mem_map]
    exact fun f _ => rfl

/-- What joins the texts of equalities. -/
theorem ofList_join_equalities (fields : List (KeyPath × Value)) :
    String.ofList (Connective.and.join
      (fields.map fun f => comparisonText f.1.chars .equal false f.2.chars)) =
    " AND ".intercalate (fields.map fun f => f.1.text ++ " == " ++ f.2.text) := by
  apply String.toList_injective
  simp [Connective.join, Connective.word, comparisonText, KeyPath.text, Value.text, Operator.symbol,
    Function.comp_def]

theorem selects_native_holding (hne : fields ≠ []) (look : Lookup) :
    (native (.chain .and (fields.map Predicate.holding))).selects look =
      (logical .and (fields.map holding)).selects look := by
  have hreading : (logical .and (fields.map holding)).reading =
      .chain .and (fields.map Predicate.holding) := by
    obtain ⟨field, fields, rfl⟩ := List.exists_cons_of_ne_nil hne
    rw [reading, readings_eq, List.map_map]
    rfl
  have hselects : (logical .and (fields.map holding)).reading.evaluate look =
      .ok ((logical .and (fields.map holding)).selects look) := by
    refine evaluate_reading_logical ?_
    rw [List.forall_mem_map]
    exact fun f _ => rfl
  rw [hreading] at hselects
  conv_lhs => rw [selects, hselects]

end Criterion

/-! ### Documents -/

namespace CriterionInput

variable {documents : List (String × Document)}

theorem scalarOr_eq_ok {unfit : Document.Kind → Unfit} {d : Document} {v : Value}
    (h : d.scalar? = some v) : scalarOr unfit d = .ok v := by
  rw [scalarOr, h]

theorem ofDocument_object (h : List.Forall₂ Describes documents entries) :
    ofDocument (.object documents) = .ok (.fields entries) := by
  refine map_eq_ok_iff.2 ⟨entries, mapM_eq_ok_iff.2 ?_, rfl⟩
  induction h with
  | nil => rfl
  | @cons described entry documents entries hentry _ ih =>
    have hfirst : (described.1, ·) <$> scalarOr (.fieldHolding described.1) described.2 =
        .ok entry := by
      rw [scalarOr_eq_ok hentry.2, hentry.1]
      rfl
    rw [List.map_cons, List.map_cons, ih]
    exact congrArg (· :: entries.map .ok) hfirst

/-- A format in front of keys and values. -/
theorem ofDocument_array (text : String) (h : List.Forall₂ Describes documents entries) :
    ofDocument (.array (.string text :: documents.flatMap fun d => [.string d.1, d.2])) =
      .ok (.format text (mapArguments entries)) := by
  refine map_eq_ok_iff.2 ⟨mapArguments entries, mapM_eq_ok_iff.2 ?_, rfl⟩
  induction h with
  | nil => rfl
  | @cons described entry documents entries hentry _ ih =>
    have hkey : scalarOr .argumentHolding (.string described.1) = .ok (.string entry.1) := by
      rw [hentry.1]
      rfl
    rw [List.flatMap_cons, List.map_append, ih, List.map_cons, List.map_cons, hkey,
      scalarOr_eq_ok hentry.2]
    rfl

/-- All forms of a map of fields agree. When the keys are read as distinct paths and every number is
finite, the list of entries, the format with a placeholder for each key and each value, and the
documents that describe the one or the other are all accepted. Each stands for a criterion with the
text of the equalities in their order, and selects the records all of whose fields hold the
values. -/
theorem field_map_forms (hne : entries ≠ []) (hnames : List.Forall₂ Names entries fields)
    (hdistinct : (fields.map Prod.fst).Nodup) (hfinite : ∀ f ∈ fields, f.2.isFinite = true) :
    let text := " AND ".intercalate (fields.map fun f => f.1.text ++ " == " ++ f.2.text)
    let selects (look : Lookup) :=
      fields.all fun f => Operator.equal.holdsBetween false (look f.1) (some f.2)
    StandsFor (.ok (.fields entries)) text selects ∧
    StandsFor (.ok (.format (mapFormat entries.length) (mapArguments entries))) text selects ∧
    ∀ documents, List.Forall₂ Describes documents entries →
      StandsFor (ofDocument (.object documents)) text selects ∧
      StandsFor (ofDocument (.array
        (.string (mapFormat entries.length) :: documents.flatMap fun d => [.string d.1, d.2])))
        text selects := by
  intro text selects
  have hfields : fields ≠ [] := by
    rintro rfl
    exact hne (List.forall₂_nil_right_iff.1 hnames)
  have hselects (look : Lookup) :
      (Criterion.logical .and (fields.map Criterion.holding)).selects look = selects look := by
    rw [Criterion.selects, Criterion.allSelect_eq, List.all_map]
    rfl
  have hlist : StandsFor (.ok (.fields entries)) text selects := by
    refine ⟨_, normalize_fields hne hnames hdistinct hfinite, ?_, hselects⟩
    rw [Criterion.text, Criterion.chars_holding hfields, Criterion.ofList_join_equalities]
  have hformat : StandsFor (.ok (.format (mapFormat entries.length) (mapArguments entries)))
      text selects := by
    refine ⟨_, normalize_format (Predicate.parseWith_mapFormat hne hnames hfinite), ?_,
      fun look => (Criterion.selects_native_holding hfields look).trans (hselects look)⟩
    rw [Criterion.text, Criterion.chars_native_holding hfields, Criterion.ofList_join_equalities]
  refine ⟨hlist, hformat, fun documents hdocuments => ?_⟩
  rw [ofDocument_object hdocuments, ofDocument_array _ hdocuments]
  exact ⟨hlist, hformat⟩

/-- Blanks around a key, a path of two steps, a boolean, a double and a string that spells a
placeholder. -/
theorem field_map_forms_mixed :
    let half : Binary64 := { negative := false, magnitude := 1022 * Nat.pow 2 52 }
    let entries : List (String × Value) := [(" name ", .string "%@"), ("job.title", .nil),
      ("enabled", .bool true), ("share", .float half)]
    let fields : List (KeyPath × Value) := [(⟨["name"]⟩, .string "%@"),
      (⟨["job", "title"]⟩, .nil), (⟨["enabled"]⟩, .bool true), (⟨["share"]⟩, .float half)]
    let documents : List (String × Document) := [(" name ", .string "%@"), ("job.title", .null),
      ("enabled", .bool true), ("share", .float half)]
    let format := "%K == %@ AND %K == %@ AND %K == %@ AND %K == %@"
    let text := "name == \"%@\" AND job.title == nil AND enabled == 1 AND share == 0.5"
    let selects (look : Lookup) :=
      fields.all fun f => Operator.equal.holdsBetween false (look f.1) (some f.2)
    StandsFor (.ok (.fields entries)) text selects ∧
      StandsFor (.ok (.format format [.string " name ", .string "%@", .string "job.title", .nil,
        .string "enabled", .bool true, .string "share", .float half])) text selects ∧
      StandsFor (ofDocument (.object documents)) text selects ∧
      StandsFor (ofDocument (.array [.string format, .string " name ", .string "%@",
        .string "job.title", .null, .string "enabled", .bool true, .string "share", .float half]))
        text selects := by
  intro half entries fields documents format text selects
  have hname : KeyPath.parse " name " = .ok ⟨["name"]⟩ := by rfl
  have hjob : KeyPath.parse "job.title" = .ok ⟨["job", "title"]⟩ := by rfl
  have henabled : KeyPath.parse "enabled" = .ok ⟨["enabled"]⟩ := by rfl
  have hshare : KeyPath.parse "share" = .ok ⟨["share"]⟩ := by rfl
  have hnames : List.Forall₂ Names entries fields :=
    .cons ⟨hname, rfl⟩ (.cons ⟨hjob, rfl⟩ (.cons ⟨henabled, rfl⟩ (.cons ⟨hshare, rfl⟩ .nil)))
  have hdescribes : List.Forall₂ Describes documents entries :=
    .cons ⟨rfl, rfl⟩ (.cons ⟨rfl, rfl⟩ (.cons ⟨rfl, rfl⟩ (.cons ⟨rfl, rfl⟩ .nil)))
  have htext : " AND ".intercalate (fields.map fun f => f.1.text ++ " == " ++ f.2.text) = text := by
    decide +kernel
  have hformat : mapFormat entries.length = format := by decide
  have hfinite : ∀ f ∈ fields, f.2.isFinite = true := by decide
  have hforms := field_map_forms (by simp [entries]) hnames (by decide) hfinite
  rw [htext, hformat] at hforms
  obtain ⟨hlist, hbound, hdocuments⟩ := hforms
  obtain ⟨hobject, harray⟩ := hdocuments documents hdescribes
  exact ⟨hlist, hbound, hobject, harray⟩

end CriterionInput

end RecordQuery
