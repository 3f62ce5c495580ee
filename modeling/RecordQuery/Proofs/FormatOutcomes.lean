import Mathlib.Data.List.TakeWhile
import RecordQuery.Proofs.Accepted
import RecordQuery.Proofs.Building

/-! How reading a format ends: with a predicate whose compounds join at least two operands and whose
paths are valid, or because the text is no sentence of the language, because a path in it is not
valid, or because of letters in brackets that are not the one modifier there is. -/

namespace RecordQuery

/-- The errors that a sentence of the language can carry. -/
def FormatError.IsCarried : FormatError → Prop
  | unsupportedModifier flags =>
    flags ≠ "" ∧ flags.toList.all Char.isAlpha = true ∧ flags ≠ "c"
  | invalidKeyPath path => (KeyPath.ofText path).isValid = false
  | _ => False

theorem KeyPath.isCarried_of_parse {s : String} {e : FormatError} (h : parse s = .error e) :
    e.IsCarried := by
  obtain ⟨hvalid, rfl⟩ := parse_eq_error_iff.1 h
  exact hvalid

theorem flags_of_scanModifier {s rest flags : List Char}
    (h : scanModifier s = (some flags, rest)) :
    flags ≠ [] ∧ ∀ c ∈ flags, c.isAlpha = true := by
  unfold scanModifier at h
  split at h
  · split at h
    · rename_i r flag letters t htake _
      obtain ⟨hflags, rfl⟩ := Prod.mk.inj h
      obtain rfl := Option.some.inj hflags
      refine ⟨by simp, fun c hc => ?_⟩
      rw [← htake] at hc
      exact List.mem_takeWhile_imp hc
    · exact absurd h (by simp)
  · exact absurd h (by simp)

theorem isCarried_scanOperator {s rest : List Char} {op : Operator}
    {foldCase : Except FormatError Bool} {e : FormatError}
    (h : scanOperator s = some ((op, foldCase), rest)) (he : foldCase = .error e) :
    e.IsCarried := by
  simp only [scanOperator, Option.bind_eq_bind, Option.bind_eq_some_iff, Prod.exists] at h
  obtain ⟨op', t, -, hfound⟩ := h
  cases hmodifier : scanModifier t with
  | mk flags u =>
    rw [hmodifier] at hfound
    obtain ⟨⟨rfl, rfl⟩, rfl⟩ := Prod.mk.inj (Option.some.inj hfound) |>.imp_left Prod.mk.inj
    cases flags with
    | none => exact absurd he (by simp [foldsCase])
    | some flags =>
      obtain ⟨hne, halpha⟩ := flags_of_scanModifier hmodifier
      rw [foldsCase] at he
      split at he
      · exact absurd he (by simp)
      · rename_i hc
        obtain rfl := Except.error.inj he
        have hempty : String.ofList flags ≠ "" := fun h => hne (by simpa using h)
        have hother : String.ofList flags ≠ "c" := fun h =>
          hc (String.ofList_injective (h.trans (String.ofList_toList (s := "c")).symm))
        exact ⟨hempty, by simpa using halpha, hother⟩

theorem isCarried_scanOperand {s rest : List Char} {found : Except FormatError Operand}
    {e : FormatError} (h : scanOperand s = some (found, rest)) (he : found = .error e) :
    e.IsCarried := by
  cases scannedOperand_of_scanOperand h with
  | path => exact KeyPath.isCarried_of_parse (map_eq_error_iff.1 he)
  | _ => exact absurd he (by simp)

namespace Predicate

theorem isCarried_scanComparison {s rest : List Char} {found : Read}
    (h : scanComparison s = some (found, rest)) : ∀ e, found = .error e → e.IsCarried := by
  intro e he
  obtain ⟨left, t, op, foldCase, u, right, hleft, hop, hright, rfl⟩ := exists_of_scanComparison h
  simp only [bind_eq_error_iff] at he
  obtain he | ⟨_, -, he | ⟨_, -, he | ⟨_, -, he⟩⟩⟩ := he
  · exact isCarried_scanOperand hleft he
  · exact isCarried_scanOperator hop he
  · exact isCarried_scanOperand hright he
  · exact absurd he (by simp [pure, Except.pure])

/-- What is found is a predicate, or an error that a sentence carries. -/
theorem invariant_isCarried : Invariant fun _ found _ => ∀ e, found = .error e → e.IsCarried where
  comparison := isCarried_scanComparison
  constant _ e he := absurd he (by simp)
  group h _ := h
  negation _ h e he := h e (map_eq_error_iff.1 he)
  chain hfirst hmore e he := by
    have hmem := error_mem_of_mapM_id (map_eq_error_iff.1 he)
    rcases List.mem_cons.1 hmem with he | hmem
    · exact hfirst e he.symm
    · obtain ⟨_, _, h⟩ := hmore.forall _ hmem
      exact h e rfl

theorem cases_of_parse_error {format : String} {e : FormatError} (h : parse format = .error e) :
    e = .malformed ∨ e.IsCarried := by
  unfold parse at h
  split at h
  · exact .inl (Except.error.inj h).symm
  · rename_i found rest hscan
    split at h
    · exact .inr (invariant_isCarried.finds_scan _ _ _ hscan e h)
    · exact .inl (Except.error.inj h).symm

/-- Reading a format by way of its parse trees gives what reading it gives. It ends in one of four
ways and in no other, and each of the four occurs: a predicate whose compounds join at least two
operands and whose paths are valid; a text that is no sentence; a path that is not valid; or letters
in brackets that are not the one modifier. -/
theorem parse_outcomes :
    (∀ format, parseChecked format = (parse format).mapError .format) ∧
    (∀ format,
      (∃ p, parseChecked format = .ok p ∧ p.Branching ∧ ∀ path ∈ p.paths, path.isValid = true) ∨
      parseChecked format = .error (.format .malformed) ∨
      (∃ path, (KeyPath.ofText path).isValid = false ∧
        parseChecked format = .error (.format (.invalidKeyPath path))) ∨
      ∃ flags, (flags ≠ "" ∧ flags.toList.all Char.isAlpha = true ∧ flags ≠ "c") ∧
        parseChecked format = .error (.format (.unsupportedModifier flags))) ∧
    (∃ format p, parseChecked format = .ok p) ∧
    (∃ format, parseChecked format = .error (.format .malformed)) ∧
    (∃ format path, parseChecked format = .error (.format (.invalidKeyPath path))) ∧
    ∃ format flags, parseChecked format = .error (.format (.unsupportedModifier flags)) := by
  refine ⟨parseChecked_eq, fun format => ?_, ?_, ?_, ?_, ?_⟩
  · rw [parseChecked_eq]
    cases hparse : parse format with
    | ok p =>
      have hread := isRead_of_parse hparse
      exact .inl ⟨p, rfl, hread.branching, hread.isValid_of_mem_paths⟩
    | error e =>
      obtain rfl | hcarried := cases_of_parse_error hparse
      · exact .inr (.inl rfl)
      · cases e with
        | invalidKeyPath path => exact .inr (.inr (.inl ⟨path, hcarried, rfl⟩))
        | unsupportedModifier flags => exact .inr (.inr (.inr ⟨flags, hcarried, rfl⟩))
        | _ => exact hcarried.elim
  · exact ⟨"a == 1", _, by rw [parseChecked_eq]; with_unfolding_all rfl⟩
  · exact ⟨"a ==", by rw [parseChecked_eq]; with_unfolding_all rfl⟩
  · exact ⟨"a.not == 1", _, by rw [parseChecked_eq]; with_unfolding_all rfl⟩
  · exact ⟨"a ==[cd] 1", _, by rw [parseChecked_eq]; with_unfolding_all rfl⟩

end Predicate

end RecordQuery
