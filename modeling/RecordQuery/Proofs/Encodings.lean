import RecordQuery.Persisted.Scalar
import RecordQuery.Proofs.JsonText

/-! Encodings into JSON and what is taken out of them again. Reading may enter as many arrays and
objects, one inside the other, as it has room for, so a part is read wherever the room is not less
than the depth of what encodes it. -/

namespace RecordQuery

/-- A mapped list is taken back item by item. -/
theorem mapM_map_eq_some {α β γ : Type} {f : β → Option γ} {g : α → β} {k : α → γ} {as : List α}
    (h : ∀ a ∈ as, f (g a) = some (k a)) : (as.map g).mapM f = some (as.map k) := by
  induction as with
  | nil => rfl
  | cons a as ih =>
    rw [List.forall_mem_cons] at h
    rw [List.map_cons, List.mapM_cons, h.1, ih h.2]
    rfl

namespace Json

/-! ### Depth -/

mutual

/-- How many arrays and objects are nested, one inside the other. -/
def depth : Json → ℕ
  | array items => depthOfItems items + 1
  | object fields => depthOfFields fields + 1
  | _ => 0

def depthOfItems : List Json → ℕ
  | [] => 0
  | j :: items => max j.depth (depthOfItems items)

def depthOfFields : List (List Char × Json) → ℕ
  | [] => 0
  | (_, j) :: fields => max j.depth (depthOfFields fields)

end

theorem depth_le_depthOfItems {items : List Json} {j : Json} (h : j ∈ items) :
    j.depth ≤ depthOfItems items := by
  induction items with
  | nil => exact absurd h (by simp)
  | cons first items ih =>
    rcases List.mem_cons.1 h with rfl | hmem
    · exact Nat.le_max_left ..
    · exact (ih hmem).trans (Nat.le_max_right ..)

theorem depth_le_depthOfFields {fields : List (List Char × Json)} {field : List Char × Json}
    (h : field ∈ fields) : field.2.depth ≤ depthOfFields fields := by
  induction fields with
  | nil => exact absurd h (by simp)
  | cons first fields ih =>
    rcases List.mem_cons.1 h with rfl | hmem
    · exact Nat.le_max_left ..
    · exact (ih hmem).trans (Nat.le_max_right ..)

/-- Entering an array uses up one of the room, and its items fit into the rest. -/
theorem exists_room_of_array {items : List Json} {room : ℕ} (h : (array items).depth ≤ room) :
    ∃ inner, room = inner + 1 ∧ ∀ j ∈ items, j.depth ≤ inner := by
  cases room with
  | zero => exact absurd h (by simp [depth])
  | succ inner =>
    exact ⟨inner, rfl, fun j hj => (depth_le_depthOfItems hj).trans (Nat.le_of_succ_le_succ h)⟩

theorem exists_room_of_struct {fields : List (String × Json)} {room : ℕ}
    (h : (struct fields).depth ≤ room) :
    ∃ inner, room = inner + 1 ∧ ∀ field ∈ fields, field.2.depth ≤ inner := by
  cases room with
  | zero => exact absurd h (by simp [struct, depth])
  | succ inner =>
    refine ⟨inner, rfl, fun field hfield => ?_⟩
    exact (depth_le_depthOfFields (List.mem_map_of_mem hfield)).trans (Nat.le_of_succ_le_succ h)

theorem exists_room_of_variant {tag : String} {content : Json} {room : ℕ}
    (h : (variant tag content).depth ≤ room) :
    ∃ inner, room = inner + 1 ∧ content.depth ≤ inner := by
  obtain ⟨inner, rfl, hinner⟩ := exists_room_of_struct h
  exact ⟨inner, rfl, hinner (tag, content) (by simp)⟩

/-! ### Taking apart -/

@[simp] theorem text?_text (s : String) : (text s).text? = some s := unspell?_spell s

@[simp] theorem variant?_text (room : ℕ) (s : String) :
    (text s).variant? room = some (s, null) := by
  simp [variant?, text]

@[simp] theorem variant?_variant (room : ℕ) (tag : String) (content : Json) :
    (variant tag content).variant? (room + 1) = some (tag, content) := by
  simp [variant?, variant, struct]

@[simp] theorem items?_array (room : ℕ) (items : List Json) :
    (array items).items? (room + 1) = some items := rfl

theorem filter_fst_eq {fields : List (String × Json)} (distinct : (fields.map Prod.fst).Nodup)
    {field : String × Json} (h : field ∈ fields) : fields.filter (·.1 = field.1) = [field] := by
  induction fields with
  | nil => exact absurd h (by simp)
  | cons first fields ih =>
    rw [List.map_cons, List.nodup_cons] at distinct
    obtain ⟨hfirst, hdistinct⟩ := distinct
    rcases List.mem_cons.1 h with rfl | hmem
    · have hothers : fields.filter (·.1 = field.1) = [] := by
        rw [List.filter_eq_nil_iff]
        intro other hother heq
        exact hfirst (of_decide_eq_true heq ▸ List.mem_map_of_mem hother)
      rw [List.filter_cons_of_pos (by simp), hothers]
    · have hne : first.1 ≠ field.1 := fun heq => hfirst (heq ▸ List.mem_map_of_mem hmem)
      rw [List.filter_cons_of_neg (by simpa using hne), ih hdistinct hmem]

/-- The members of a structure are found by their names. -/
theorem members?_struct (room : ℕ) {fields : List (String × Json)}
    (distinct : (fields.map Prod.fst).Nodup) :
    (struct fields).members? (room + 1) (fields.map Prod.fst) = some (fields.map Prod.snd) := by
  unfold struct members?
  simp only [Nat.succ_ne_zero, if_false, Option.bind_eq_bind]
  -- the fields with their names unspelled are the fields
  rw [mapM_map_eq_some (k := id)]
  · rw [List.map_id, Option.bind_some]
    refine mapM_map_eq_some fun field hfield => ?_
    rw [filter_fst_eq distinct hfield]
  · intro field _
    simp

@[simp] theorem integer?_integer (n : Int64) : (integer n.toInt).integer? = some n := by
  have hsign : ((Numeral.ofInt n.toInt).negative && n.toInt == 0) = false := by
    simp only [Numeral.ofInt, Bool.and_eq_false_iff, decide_eq_false_iff_not, beq_eq_false_iff_ne]
    omega
  simp [integer, integer?, hsign]

/-! ### What encodings are written with -/

theorem written_integer (n : ℤ) : (integer n).Written :=
  .number (Numeral.positional_ofInt n).digital (Numeral.unpadded_ofInt n)

theorem written_float (x : Binary64) : (float x).Written := by
  unfold float
  split
  · rename_i hfinite
    have hnumeral := FloatLayout.numeral_persisted hfinite
    exact .number hnumeral.1 hnumeral.2
  · exact .null

theorem written_variant {tag : String} {content : Json} (h : content.Written) :
    (variant tag content).Written :=
  .struct fun field hfield => by
    obtain rfl := List.mem_singleton.1 hfield
    exact h

end Json

/-! ### Scalars, paths and operators -/

/-- A double that is read from the numeral it is persisted as. -/
def Binary64.Persists (x : Binary64) : Prop := (FloatLayout.persisted.numeral x).scaled? = some x

theorem Value.written_encode (v : Value) : v.encode.Written := by
  cases v with
  | nil => exact .text
  | bool b => exact Json.written_variant .bool
  | integer n => exact Json.written_variant (Json.written_integer _)
  | float x => exact Json.written_variant (Json.written_float x)
  | string s => exact Json.written_variant .text

theorem Value.decode_encode {v : Value} (hfinite : v.isFinite = true)
    (hdouble : ∀ x, v = .float x → x.Persists) {room : ℕ} (hroom : v.encode.depth ≤ room) :
    decode room v.encode = some v := by
  cases v with
  | nil => simp [decode, encode]
  | bool b =>
    obtain ⟨room, rfl, -⟩ := Json.exists_room_of_variant hroom
    simp [decode, encode, Json.bool?]
  | integer n =>
    obtain ⟨room, rfl, -⟩ := Json.exists_room_of_variant hroom
    simp [decode, encode]
  | float x =>
    obtain ⟨room, rfl, -⟩ := Json.exists_room_of_variant hroom
    have hread : (Json.float x).float? = some x := by
      rw [Json.float, if_pos (show x.isFinite = true from hfinite)]
      exact hdouble x rfl
    simp [decode, encode, hread]
  | string s =>
    obtain ⟨room, rfl, -⟩ := Json.exists_room_of_variant hroom
    simp [decode, encode]

theorem KeyPath.written_encode (path : KeyPath) : path.encode.Written := by
  refine .struct fun field hfield => ?_
  obtain rfl := List.mem_singleton.1 hfield
  refine .array fun j hj => ?_
  obtain ⟨step, -, rfl⟩ := List.mem_map.1 hj
  exact .text

theorem KeyPath.decode_encode {path : KeyPath} {room : ℕ} (hroom : path.encode.depth ≤ room) :
    decode room path.encode = some path := by
  obtain ⟨room, rfl, hsteps⟩ := Json.exists_room_of_struct hroom
  obtain ⟨room, rfl, -⟩ := Json.exists_room_of_array (hsteps _ (List.mem_singleton_self _))
  have hmembers : path.encode.members? (room + 2) ["steps"] =
      some [.array (path.steps.map .text)] := Json.members?_struct (room + 1) (by simp)
  have hsteps : (path.steps.map Json.text).mapM Json.text? = some path.steps := by
    rw [mapM_map_eq_some (k := id) fun step _ => Json.text?_text step, List.map_id]
  simp [decode, hmembers, hsteps]

theorem Operator.written_encode (op : Operator) : op.encode.Written := .text

theorem Operator.decode_encode (op : Operator) (room : ℕ) : decode room op.encode = some op := by
  cases op <;> simp [decode, encode, name, all]

end RecordQuery
