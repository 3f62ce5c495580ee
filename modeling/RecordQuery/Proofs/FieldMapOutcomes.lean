import RecordQuery.Proofs.FieldMaps

/-! What becomes of a map of fields. The keys are read from the left, and the first one that is no
path, or is the path of an earlier key, is the fault that is reported; only when all are read are
the values looked at. A map without a fault is a conjunction of equalities. Whether there is a
fault and what the conjunction selects does not depend on the order of the entries, although which
fault is reported does. -/

namespace RecordQuery

namespace CriterionInput

/-- The keys of the entries are read as the paths of the fields, which are distinct. -/
structure ReadAs (entries : List (String × Value)) (fields : List (KeyPath × Value)) : Prop where
  names : List.Forall₂ Names entries fields
  distinct : (fields.map Prod.fst).Nodup

/-- The first entry whose key is no path, or the path of an entry before it, and the error that says
so. -/
inductive KeyFault : List (String × Value) → ScopeError → Prop
  | unreadable {before fields key v after error} : ReadAs before fields →
      KeyPath.parse key = .error error →
      KeyFault (before ++ (key, v) :: after) (.invalidFieldPath key)
  | repeated {before fields key v after path} : ReadAs before fields →
      KeyPath.parse key = .ok path → path ∈ fields.map Prod.fst →
      KeyFault (before ++ (key, v) :: after) (.unfit (.repeatedKey key))

/-- What becomes of a map of fields. -/
inductive Outcome : List (String × Value) → Except ScopeError (Option Criterion) → Prop
  | nothing : Outcome [] (.ok none)
  | keyFault {entries error} : KeyFault entries error → Outcome entries (.error error)
  | notFinite {entries before path x after} : ReadAs entries (before ++ (path, .float x) :: after) →
      (∀ f ∈ before, f.2.isFinite = true) → x.isFinite = false →
      Outcome entries (.error (.format (.nonFiniteNumber x)))
  | accepted {entries fields} : entries ≠ [] → ReadAs entries fields →
      (∀ f ∈ fields, f.2.isFinite = true) →
      Outcome entries (.ok (some (.logical .and (fields.map Criterion.holding))))

end CriterionInput

variable {entries entries' : List (String × Value)} {fields : List (KeyPath × Value)}

theorem Operator.holdsBetween_equal {a : Option Value} {v : Value} :
    equal.holdsBetween false a (some v) = true ↔ ∃ u, a = some u ∧ u.compare v = some .eq := by
  cases a with
  | none => simp [holdsBetween]
  | some u => simp [holdsBetween, holds, relates]

namespace Criterion

/-- The first fault from the left is the one that is reported. -/
theorem validateAll_eq_error {before : List Criterion} {c : Criterion} {error : ScopeError}
    (hbefore : ∀ b ∈ before, b.validate = .ok ()) (h : c.validate = .error error)
    (after : List Criterion) : validateAll (before ++ c :: after) = .error error := by
  induction before with
  | nil =>
    rw [List.nil_append, validateAll, h]
    rfl
  | cons b before ih =>
    rw [List.forall_mem_cons] at hbefore
    rw [List.cons_append, validateAll, hbefore.1]
    exact ih hbefore.2

/-- The conjunction of equalities selects the records all of whose fields compare as equal. -/
theorem selects_holding {look : Lookup} :
    (logical .and (fields.map holding)).selects look = true ↔
      ∀ f ∈ fields, ∃ v, look f.1 = some v ∧ v.compare f.2 = some .eq := by
  rw [selects, allSelect_eq, List.all_map, List.all_eq_true]
  exact forall₂_congr fun f _ => Operator.holdsBetween_equal

end Criterion

namespace CriterionInput

/-! ### The outcome of a map -/

theorem equalities_of_keyFault {error : ScopeError} (h : KeyFault entries error) :
    equalities [] entries = .error error := by
  cases h with
  | unreadable hread hkey =>
    rw [equalities_append hread.names hread.distinct (by simp), equalities, hkey]
    rfl
  | repeated hread hkey hpath =>
    rw [equalities_append hread.names hread.distinct (by simp), equalities, hkey]
    simp only [List.append_nil, List.mem_reverse, if_pos hpath]
    rfl

theorem validate_of_notFinite {before after : List (KeyPath × Value)} {path : KeyPath}
    {x : Binary64} (hread : ReadAs entries (before ++ (path, .float x) :: after))
    (hbefore : ∀ f ∈ before, f.2.isFinite = true) (hx : x.isFinite = false) :
    (Criterion.logical .and
      ((before ++ (path, .float x) :: after).map Criterion.holding)).validate =
        .error (.format (.nonFiniteNumber x)) := by
  have hvalid := isValid_of_names hread.names
  rw [List.forall_mem_append, List.forall_mem_cons] at hvalid
  rw [Criterion.validate, List.map_append, List.map_cons]
  refine Criterion.validateAll_eq_error ?_ ?_ _
  · rw [List.forall_mem_map]
    exact fun f hf => Criterion.validate_holding (hvalid.1 f hf) (hbefore f hf)
  · simp [Criterion.holding, Criterion.validate, Criterion.checkComparison, hvalid.2.1, hx]

theorem normalize_of_outcome {result : Except ScopeError (Option Criterion)}
    (h : Outcome entries result) : (CriterionInput.fields entries).normalize = result := by
  cases h with
  | nothing => rfl
  | keyFault hfault =>
    have hne : entries ≠ [] := by cases hfault <;> simp
    rw [normalize_fields_eq hne, equalities_of_keyFault hfault]
    rfl
  | notFinite hread hbefore hx =>
    have hne : entries ≠ [] := by
      rintro rfl
      exact absurd (List.forall₂_nil_left_iff.1 hread.names) (by simp)
    rw [normalize_fields_eq hne, equalities_eq hread.names hread.distinct]
    show checked _ = _
    exact bind_eq_error_iff.2 (.inl (validate_of_notFinite hread hbefore hx))
  | accepted hne hread hfinite => exact normalize_fields hne hread.names hread.distinct hfinite

theorem KeyFault.append {error : ScopeError} (h : KeyFault entries error)
    (rest : List (String × Value)) : KeyFault (entries ++ rest) error := by
  cases h with
  | unreadable hread hkey =>
    rw [List.append_assoc]
    exact .unreadable hread hkey
  | repeated hread hkey hpath =>
    rw [List.append_assoc]
    exact .repeated hread hkey hpath

/-- Either all keys are read or one of them is at fault. -/
theorem readAs_or_keyFault (entries : List (String × Value)) :
    (∃ fields, ReadAs entries fields) ∨ ∃ error, KeyFault entries error := by
  -- from the right, so that the paths of all entries before the last one are known
  induction entries using List.reverseRecOn with
  | nil => exact .inl ⟨[], .nil, List.nodup_nil⟩
  | append_singleton before entry ih =>
    obtain ⟨key, v⟩ := entry
    obtain ⟨fields, hread⟩ | ⟨error, hfault⟩ := ih
    · cases hkey : KeyPath.parse key with
      | error error => exact .inr ⟨_, .unreadable hread hkey⟩
      | ok path =>
        by_cases hpath : path ∈ fields.map Prod.fst
        · exact .inr ⟨_, .repeated hread hkey hpath⟩
        · refine .inl ⟨fields ++ [(path, v)], ?_, ?_⟩
          · exact List.rel_append hread.names (.cons ⟨hkey, rfl⟩ .nil)
          · rw [List.map_append, List.nodup_append_comm]
            exact List.nodup_cons.2 ⟨hpath, hread.distinct⟩
    · exact .inr ⟨error, hfault.append _⟩

/-- Either all values are finite or there is a first double that is not. -/
theorem isFinite_or_first (fields : List (KeyPath × Value)) :
    (∀ f ∈ fields, f.2.isFinite = true) ∨ ∃ before path x after,
      fields = before ++ (path, .float x) :: after ∧ (∀ f ∈ before, f.2.isFinite = true) ∧
        x.isFinite = false := by
  cases hfirst : fields.find? fun f => !f.2.isFinite with
  | none =>
    rw [List.find?_eq_none] at hfirst
    exact .inl fun f hf => by simpa using hfirst f hf
  | some f =>
    obtain ⟨path, v⟩ := f
    obtain ⟨hv, before, after, rfl, hbefore⟩ := List.find?_eq_some_iff_append.1 hfirst
    cases v with
    | float x =>
      exact .inr ⟨before, path, x, after, rfl, by simpa using hbefore,
        by simpa [Value.isFinite] using hv⟩
    | nil | bool | integer | string => exact absurd hv (by simp [Value.isFinite])

theorem exists_outcome (entries : List (String × Value)) : ∃ result, Outcome entries result := by
  obtain ⟨fields, hread⟩ | ⟨error, hfault⟩ := readAs_or_keyFault entries
  · obtain hfinite | ⟨before, path, x, after, rfl, hbefore, hx⟩ := isFinite_or_first fields
    · obtain rfl | hne := eq_or_ne entries []
      · exact ⟨_, .nothing⟩
      · exact ⟨_, .accepted hne hread hfinite⟩
    · exact ⟨_, .notFinite hread hbefore hx⟩
  · exact ⟨_, .keyFault hfault⟩

/-- Every map has exactly one outcome. -/
theorem normalize_eq_iff {result : Except ScopeError (Option Criterion)} :
    (CriterionInput.fields entries).normalize = result ↔ Outcome entries result := by
  refine ⟨fun h => ?_, normalize_of_outcome⟩
  -- an outcome there is, and the function has no other result
  obtain ⟨result', houtcome⟩ := exists_outcome entries
  rw [← h, normalize_of_outcome houtcome]
  exact houtcome

/-! ### The order of the entries -/

/-- In another order the same fields are read. -/
theorem ReadAs.perm (h : ReadAs entries fields) (hperm : entries'.Perm entries) :
    ∃ fields', ReadAs entries' fields' ∧ fields'.Perm fields := by
  obtain ⟨fields', hnames, hfields⟩ := List.perm_comp_forall₂ hperm h.names
  exact ⟨fields', ⟨hnames, (hfields.map Prod.fst).nodup_iff.2 h.distinct⟩, hfields⟩

/-- A map that is accepted is accepted in any order, and selects the same records. -/
theorem Outcome.perm {c : Option Criterion} (h : Outcome entries (.ok c))
    (hperm : entries'.Perm entries) :
    ∃ c', Outcome entries' (.ok c') ∧ ∀ look, c'.all (·.selects look) = c.all (·.selects look) := by
  cases h with
  | nothing =>
    obtain rfl := hperm.eq_nil
    exact ⟨none, .nothing, fun _ => rfl⟩
  | accepted hne hread hfinite =>
    obtain ⟨fields', hread', hfields⟩ := hread.perm hperm
    have hne' : entries' ≠ [] := by
      rintro rfl
      exact hne hperm.symm.eq_nil
    refine ⟨_, .accepted hne' hread' fun f hf => hfinite f (hfields.mem_iff.1 hf), fun look => ?_⟩
    rw [Bool.eq_iff_iff, Option.all_some, Option.all_some, Criterion.selects_holding,
      Criterion.selects_holding]
    simp only [hfields.mem_iff]

/-- A map of fields is normalized to exactly one outcome. With no entries it stands for nothing. Else
the first key that is no path or repeats the path of an earlier one is reported as it is written;
if there is none, the first double that is not finite is; and if there is none either, the map is
the conjunction of one equality per entry, in their order. The conjunction selects a record exactly
if every path leads to a value that compares as equal. So neither whether a map is accepted nor
what it selects depends on the order of the entries. -/
theorem field_map_outcomes (entries entries' : List (String × Value)) :
    (∀ result, (CriterionInput.fields entries).normalize = result ↔ Outcome entries result) ∧
    (∀ (fields : List (KeyPath × Value)) (look : Lookup),
      (Criterion.logical .and (fields.map Criterion.holding)).selects look = true ↔
        ∀ f ∈ fields, ∃ v, look f.1 = some v ∧ v.compare f.2 = some .eq) ∧
    (entries.Perm entries' →
      ((∃ c, (CriterionInput.fields entries).normalize = .ok c) ↔
        ∃ c, (CriterionInput.fields entries').normalize = .ok c) ∧
      ∀ c c', (CriterionInput.fields entries).normalize = .ok c →
        (CriterionInput.fields entries').normalize = .ok c' →
        ∀ look, c.all (·.selects look) = c'.all (·.selects look)) := by
  refine ⟨fun _ => normalize_eq_iff, fun _ _ => Criterion.selects_holding, fun hperm => ⟨?_, ?_⟩⟩
  · simp only [normalize_eq_iff]
    constructor
    · rintro ⟨c, h⟩
      obtain ⟨c', h', -⟩ := h.perm hperm.symm
      exact ⟨c', h'⟩
    · rintro ⟨c', h'⟩
      obtain ⟨c, h, -⟩ := h'.perm hperm
      exact ⟨c, h⟩
  · intro c c' h h' look
    obtain ⟨c'', h'', hselects⟩ := (normalize_eq_iff.1 h).perm hperm.symm
    obtain rfl := Except.ok.inj (h'.symm.trans (normalize_of_outcome h''))
    exact (hselects look).symm

/-- A key that repeats a path with blanks around it, ahead of a word that is no path; the same map
backwards, where the word comes first; a map of which only a value is at fault; and a map that is
accepted, in both orders. -/
theorem field_map_outcomes_faults :
    let nan := Value.float .nan
    let faulty : List (String × Value) :=
      [("job.title", nan), ("a", .bool true), (" a ", .nil), ("not", .nil)]
    let endless : List (String × Value) := [("a", .nil), ("job.title", nan)]
    let entries : List (String × Value) := [("job.title", .string "cook"), (" a ", .bool true)]
    let fields : List (KeyPath × Value) :=
      [(⟨["job", "title"]⟩, .string "cook"), (⟨["a"]⟩, .bool true)]
    let c := Criterion.logical .and (fields.map Criterion.holding)
    let look : Lookup := Record.resolve
      (ObjectRecord.mk [("a", .integer 1), ("job", .object [("title", .string "cook")])])
    (CriterionInput.fields faulty).normalize = .error (.unfit (.repeatedKey " a ")) ∧
      (CriterionInput.fields faulty.reverse).normalize = .error (.invalidFieldPath "not") ∧
      (CriterionInput.fields endless).normalize = .error (.format (.nonFiniteNumber .nan)) ∧
      (CriterionInput.fields entries).normalize = .ok (some c) ∧ c.selects look = true ∧
      ∀ c', (CriterionInput.fields entries.reverse).normalize = .ok c' →
        c'.all (·.selects look) = true := by
  intro nan faulty endless entries fields c look
  have htitle : KeyPath.parse "job.title" = .ok ⟨["job", "title"]⟩ := by rfl
  have ha : KeyPath.parse "a" = .ok ⟨["a"]⟩ := by rfl
  have hblanks : KeyPath.parse " a " = .ok ⟨["a"]⟩ := by rfl
  have hnot : KeyPath.parse "not" = .error (.invalidKeyPath "not") := by rfl
  have hfaulty : Outcome faulty (.error (.unfit (.repeatedKey " a "))) := by
    have hread : ReadAs [("job.title", nan), ("a", .bool true)]
        [(⟨["job", "title"]⟩, nan), (⟨["a"]⟩, .bool true)] :=
      ⟨.cons ⟨htitle, rfl⟩ (.cons ⟨ha, rfl⟩ .nil), by decide⟩
    exact .keyFault (.repeated hread hblanks (by decide))
  have hreverse : Outcome faulty.reverse (.error (.invalidFieldPath "not")) :=
    .keyFault (@KeyFault.unreadable [] [] _ _ _ _ ⟨.nil, by decide⟩ hnot)
  have hendless : Outcome endless (.error (.format (.nonFiniteNumber .nan))) := by
    have hread : ReadAs endless ([(⟨["a"]⟩, .nil)] ++ (⟨["job", "title"]⟩, nan) :: []) :=
      ⟨.cons ⟨ha, rfl⟩ (.cons ⟨htitle, rfl⟩ .nil), by decide⟩
    exact .notFinite hread (by decide) (by decide)
  have haccepted : Outcome entries (.ok (some c)) := by
    have hread : ReadAs entries fields :=
      ⟨.cons ⟨htitle, rfl⟩ (.cons ⟨hblanks, rfl⟩ .nil), by decide⟩
    exact .accepted (by simp [entries]) hread (by decide)
  have hc := ((field_map_outcomes entries entries).1 _).2 haccepted
  obtain ⟨-, hselects, horder⟩ := field_map_outcomes entries entries.reverse
  have hlook : c.selects look = true := by
    refine (hselects fields look).2 ?_
    rw [List.forall_mem_cons, List.forall_mem_singleton]
    exact ⟨⟨.string "cook", rfl, by decide⟩, ⟨.integer 1, rfl, by decide⟩⟩
  refine ⟨((field_map_outcomes faulty entries).1 _).2 hfaulty,
    ((field_map_outcomes faulty.reverse entries).1 _).2 hreverse,
    ((field_map_outcomes endless entries).1 _).2 hendless, hc, hlook, fun c' hc' => ?_⟩
  rw [← (horder (List.reverse_perm entries).symm).2 _ _ hc hc']
  exact hlook

end CriterionInput

end RecordQuery
