import RecordQuery.Proofs.Evaluation
import RecordQuery.Proofs.FixedPoint
import RecordQuery.Record

/-! What reading the canonical text again does to the meaning of a predicate. Nothing, if every
literal is finite and the integers written for doubles are each the only one equal to its double;
and for every literal of another kind there is a predicate, read from a text, that does not come
back with its meaning. -/

namespace RecordQuery

namespace Predicate

/-- The canonical text of a predicate is read as one of the same value on a record. -/
def KeepsMeaning (look : Lookup) (p : Predicate) : Prop :=
  ∃ q, parse p.text = .ok q ∧ q.evaluate look = p.evaluate look

/-- The text of a predicate that was read keeps its meaning on a record exactly when it is read at
all, which a negative infinity alone prevents, and the operands read have the value of the first. -/
theorem keepsMeaning_iff {p : Predicate} (h : p.IsRead) (look : Lookup) :
    p.KeepsMeaning look ↔ .float (.infinity true) ∉ p.literals ∧
      (p.mapLeaves Operand.reread).evaluate look = p.evaluate look := by
  rw [mem_literals]
  constructor
  · rintro ⟨q, hq, hmeaning⟩
    have hne := negative_infinity_not_mem h hq
    rw [parse_text_eq_reread h.branching (h.readable hne)] at hq
    obtain rfl := Except.ok.inj hq
    exact ⟨hne, hmeaning⟩
  · rintro ⟨hne, hmeaning⟩
    exact ⟨_, parse_text_eq_reread h.branching (h.readable hne), hmeaning⟩

theorem IsRead.keepsMeaning {p : Predicate} (h : p.IsRead) (settled : ∀ v ∈ p.literals, v.Settled)
    (look : Lookup) : p.KeepsMeaning look := by
  have hreads := reads_chars_denoted h.branching h.isValid_of_mem_paths fun v hv => (settled v hv).1
  refine ⟨p.mapLeaves Operand.denoted, hreads.1.parse_eq, ?_⟩
  exact evaluate_denoted fun v hv => Value.alike_denoted (settled v hv)

end Predicate

/-! ### Literals that do not keep their meaning -/

/-- Every double that is a number is named by a numeral without an exponent: an infinity by an
integer that is too large, a whole number by its digits with a zero after the point. -/
theorem exists_numeral {x : Binary64} (h : x.isNaN = false) :
    ∃ n : Numeral, n.Positional ∧ Value.ofNumeral n = .float x := by
  have hn := FloatLayout.positional_numeral_plain x
  by_cases hfin : x.isFinite = true
  · have hback := FloatLayout.toBinary64_numeral_plain hfin
    cases hfraction : (FloatLayout.plain.numeral x).fraction with
    | nil =>
      obtain ⟨hpointed, hvalue⟩ := hn.toBinary64_pointed hfraction
      exact ⟨_, hpointed, by rw [hvalue, hback]⟩
    | cons c s =>
      have hvalue := Value.ofNumeral_plain hfin
      refine ⟨_, hn, ?_⟩
      rw [hvalue, Value.denoted_float, Binary64.spelledInt?, hfraction]
      simp
  · have hx := Binary64.eq_infinity h (by simpa using hfin)
    rw [hx]
    cases x.negative with
    | false =>
      exact ⟨.ofInt (Nat.pow 10 309 : ℕ), Numeral.positional_ofInt _, by decide +kernel⟩
    | true =>
      exact ⟨.ofInt (-(Nat.pow 10 309 : ℕ)), Numeral.positional_ofInt _, by decide +kernel⟩

namespace Predicate

/-- The field `a` compared with a literal. -/
def fieldIsNot (v : Value) : Predicate :=
  comparison (.path ⟨["a"]⟩) .notEqual (.literal v) false

theorem exists_parse_fieldIsNot {x : Binary64} (h : x.isNaN = false) :
    ∃ format, parse format = .ok (fieldIsNot (.float x)) := by
  obtain ⟨n, hn, hvalue⟩ := exists_numeral h
  have hpath : Spells ['a'] (.path ⟨["a"]⟩) :=
    .path (by decide : KeyPath.isValid ⟨["a"]⟩ = true)
  have hitem := readsAsItem_comparison hpath (.numeral hn) .notEqual false
  rw [hvalue] at hitem
  exact ⟨_, hitem.reads.parse_eq⟩

/-- A record of one integer, in the field `a`. -/
def integerRecord (m : Int64) : FlatRecord := ⟨[("a", .integer m)]⟩

theorem evaluate_fieldIsNot (m : Int64) (v : Value) :
    (fieldIsNot v).evaluate (Record.resolve (integerRecord m)) =
      .ok ((Value.integer m).compare v != some .eq) := rfl

/-- The meaning is kept if the text is read and its literal gives what the first one gives. -/
theorem keepsMeaning_fieldIsNot_iff {v : Value} (hnan : v.isNaN = false) (look : Lookup) :
    (fieldIsNot v).KeepsMeaning look ↔ v ≠ .float (.infinity true) ∧
      (comparison (.path ⟨["a"]⟩) .notEqual (Operand.reread (.literal v)) false).evaluate look =
        (fieldIsNot v).evaluate look := by
  have hpath : (Operand.path ⟨["a"]⟩).IsRead := (by decide : KeyPath.isValid ⟨["a"]⟩ = true)
  have hliteral : (Operand.literal v).IsRead := hnan
  have hread : (fieldIsNot v).IsRead := isRead_comparison hpath hliteral
  have hliterals : (fieldIsNot v).literals = [v] := rfl
  rw [keepsMeaning_iff hread, hliterals, List.mem_singleton, ne_comm]
  rfl

theorem not_keepsMeaning_of_infinite (s : Bool) :
    ¬ (fieldIsNot (.float (.infinity s))).KeepsMeaning (Record.resolve (integerRecord 0)) := by
  rw [keepsMeaning_fieldIsNot_iff (by cases s <;> decide)]
  rintro ⟨hne, hmeaning⟩
  cases s with
  | true => exact hne rfl
  | false =>
    -- the word for the infinity is the name of a field that the record does not have
    have hlook : (Record.resolve (integerRecord 0) : Lookup)
        (.ofText (Binary64.infinity false).text) = none := by decide
    have hvalue : (comparison (.path ⟨["a"]⟩) .notEqual
        (Operand.reread (.literal (.float (.infinity false)))) false).evaluate
          (Record.resolve (integerRecord 0)) = .ok (Operator.holdsBetween .notEqual false
            (some (.integer 0)) (Record.resolve (integerRecord 0)
              (.ofText (Binary64.infinity false).text))) := rfl
    rw [hvalue, hlook, evaluate_fieldIsNot] at hmeaning
    exact absurd (Except.ok.inj hmeaning) (by decide +kernel)

theorem not_keepsMeaning_of_whole {x : Binary64} {m n : Int64} (hn : x.spelledInt? = some n)
    (heq : (Value.integer m).compare (.float x) = some .eq) (hne : m ≠ n) :
    ¬ (fieldIsNot (.float x)).KeepsMeaning (Record.resolve (integerRecord m)) := by
  have hfin := (Binary64.spelledInt?_eq_some hn).1
  have hnan : (Value.float x).isNaN = false := Binary64.isNaN_of_isFinite hfin
  have hreread : Operand.reread (.literal (.float x)) = .literal (.integer n) := by
    rw [Operand.reread, if_pos hfin, Value.denoted_float, hn]
  rw [keepsMeaning_fieldIsNot_iff hnan, hreread]
  rintro ⟨-, hmeaning⟩
  rw [evaluate_fieldIsNot, heq] at hmeaning
  have hvalue := evaluate_fieldIsNot m (.integer n)
  rw [fieldIsNot, hmeaning] at hvalue
  have hinteger : (Value.integer m).compare (.integer n) = some .eq := by
    simpa using Except.ok.inj hvalue
  rw [Value.compare_integers, Option.some.injEq, compare_eq_iff_eq] at hinteger
  exact hne (Int64.toInt_inj.1 hinteger)

/-- A literal that is not settled does not keep the meaning of a predicate that is read. -/
theorem exists_not_keepsMeaning {v : Value} (hnan : v.isNaN = false) (h : ¬ v.Settled) :
    ∃ format m, parse format = .ok (fieldIsNot v) ∧
      ¬ (fieldIsNot v).KeepsMeaning (Record.resolve (integerRecord m)) := by
  cases v with
  | nil | bool | integer | string => exact absurd (Value.settled_of_kind (by simp [Value.kind])) h
  | float x =>
    obtain ⟨format, hformat⟩ := exists_parse_fieldIsNot (x := x) hnan
    by_cases hfin : x.isFinite = true
    · simp only [Value.Settled, Value.isFinite, hfin, true_and, not_forall] at h
      obtain ⟨m, n, hn, heq, hne⟩ := h
      have hspelled : x.spelledInt? = some n := by
        rw [Value.denoted_float] at hn
        cases hspelled : x.spelledInt? with
        | none => simp [hspelled] at hn
        | some k => simpa [hspelled] using hn
      exact ⟨format, m, hformat, not_keepsMeaning_of_whole hspelled heq hne⟩
    · have hx := Binary64.eq_infinity hnan (by simpa using hfin)
      refine ⟨format, 0, hformat, ?_⟩
      rw [hx]
      exact not_keepsMeaning_of_infinite _

/-- When the canonical text of a predicate that was read keeps its meaning: on a record, exactly
when no literal is a negative infinity and the operands that are read have the value of the first;
on every record, if the literals are settled. A literal that is not settled makes up, with a field,
a predicate that is read too and whose meaning is lost on a record of one integer. -/
theorem canonical_text_meaning {format : String} {p : Predicate} (h : parse format = .ok p) :
    (∀ look, p.KeepsMeaning look ↔ .float (.infinity true) ∉ p.literals ∧
      (p.mapLeaves Operand.reread).evaluate look = p.evaluate look) ∧
    ((∀ v ∈ p.literals, v.Settled) → ∀ look, p.KeepsMeaning look) ∧
    ∀ v ∈ p.literals, ¬ v.Settled → ∃ format m, parse format = .ok (fieldIsNot v) ∧
      ¬ (fieldIsNot v).KeepsMeaning (Record.resolve (integerRecord m)) := by
  have hread := isRead_of_parse h
  refine ⟨keepsMeaning_iff hread, fun settled look => hread.keepsMeaning settled look,
    fun v hv hsettled => ?_⟩
  have hnan : v.isNaN = false := hread.leaves _ (mem_literals.1 hv)
  exact exists_not_keepsMeaning hnan hsettled

/-- One half is settled; `2 ^ 53` is not, since the next integer has the same double. -/
theorem canonical_text_meaning_half :
    (∀ look, ∃ p, parse "a >= 0.5" = .ok p ∧ p.KeepsMeaning look) ∧
    ∃ format m, parse format = .ok (fieldIsNot (.float (.ofInt 9007199254740992))) ∧
      ¬ (fieldIsNot (.float (.ofInt 9007199254740992))).KeepsMeaning
        (Record.resolve (integerRecord m)) := by
  have hhalf : (Value.float (.nearest false 1 2)).Settled := by
    have hdenoted : (Value.float (.nearest false 1 2)).denoted = .float (.nearest false 1 2) := by
      decide +kernel
    refine ⟨by decide +kernel, fun m n hn _ => ?_⟩
    rw [hdenoted] at hn
    exact absurd hn (by simp)
  have hwhole : ¬ (Value.float (.ofInt 9007199254740992)).Settled := by
    rintro ⟨-, halone⟩
    exact absurd (halone 9007199254740993 9007199254740992 (by decide +kernel) (by decide +kernel))
      (by decide)
  constructor
  · intro look
    obtain ⟨p, hp, hliterals⟩ := exists_of_literals (by decide +kernel :
      (parse "a >= 0.5").toOption.map literals = some [.float (.nearest false 1 2)])
    refine ⟨p, hp, (canonical_text_meaning hp).2.1 (fun v hv => ?_) look⟩
    rw [hliterals, List.mem_singleton] at hv
    rw [hv]
    exact hhalf
  · obtain ⟨p, hp, hliterals⟩ := exists_of_literals (by decide +kernel :
      (parse "a == 9007199254740992.0").toOption.map literals =
        some [.float (.ofInt 9007199254740992)])
    exact (canonical_text_meaning hp).2.2 _ (by simp [hliterals]) hwhole

end Predicate

end RecordQuery
