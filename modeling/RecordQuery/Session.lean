import RecordQuery.RecordSet

/-! Sessions: the contexts that supply backing collections for targets, and which of them is
current. Contexts and collections are told apart by number, and every new one takes the next. -/

namespace RecordQuery

/-- A context, by its number. -/
structure ContextId where
  number : Nat
  deriving DecidableEq

structure Session (α : Type) where
  /-- The collections that are registered, by context and target. -/
  collections : List ((ContextId × Target) × RecordSet α)
  current : Option ContextId
  nextContext : Nat
  nextIdentity : Nat

namespace Session

variable {α : Type}

def empty : Session α := { collections := [], current := none, nextContext := 0, nextIdentity := 0 }

/-- A new context without collections. -/
def newContext (session : Session α) : ContextId × Session α :=
  (⟨session.nextContext⟩, { session with nextContext := session.nextContext + 1 })

/-- A new collection, not registered anywhere. -/
def newRecordSet (session : Session α) (ordered : Bool) (records : List α) :
    RecordSet α × Session α :=
  ({ identity := session.nextIdentity, ordered, records },
    { session with nextIdentity := session.nextIdentity + 1 })

def backing? (session : Session α) (context : ContextId) (target : Target) :
    Option (RecordSet α) :=
  session.collections.lookup (context, target)

/-- The session without a collection for the target in the context. -/
def forget (session : Session α) (context : ContextId) (target : Target) : Session α :=
  { session with collections := session.collections.filter (·.1 != (context, target)) }

/-- Register a collection, and return the one it replaces. -/
def insert (session : Session α) (context : ContextId) (target : Target) (set : RecordSet α) :
    Option (RecordSet α) × Session α :=
  let rest := session.forget context target
  (session.backing? context target,
    { rest with collections := ((context, target), set) :: rest.collections })

/-- Unregister a collection, and return it. -/
def remove (session : Session α) (context : ContextId) (target : Target) :
    Option (RecordSet α) × Session α :=
  (session.backing? context target, session.forget context target)

/-- Install a current context, and return the one before. -/
def setCurrent (session : Session α) (context : ContextId) : Option ContextId × Session α :=
  (session.current, { session with current := some context })

def clearCurrent (session : Session α) : Option ContextId × Session α :=
  (session.current, { session with current := none })

def currentContext (session : Session α) : Except ScopeError ContextId :=
  match session.current with
  | some context => .ok context
  | none => .error .noCurrentContext

/-! ### Registering and unregistering -/

theorem lookup_filter_self {κ β : Type} [BEq κ] [LawfulBEq κ] (k : κ) (l : List (κ × β)) :
    (l.filter (·.1 != k)).lookup k = none := by
  induction l with
  | nil => rfl
  | cons x l ih => grind

theorem lookup_filter_of_ne {κ β : Type} [BEq κ] [LawfulBEq κ] {j k : κ} (h : j ≠ k)
    (l : List (κ × β)) : (l.filter (·.1 != k)).lookup j = l.lookup j := by
  induction l with
  | nil => rfl
  | cons x l ih =>
    obtain ⟨i, b⟩ := x
    by_cases hi : i = k
    · subst hi
      simpa [List.lookup_cons, beq_false_of_ne h] using ih
    · simp [hi, List.lookup_cons, ih]

@[simp] theorem backing?_forget_self (session : Session α) (context : ContextId) (target : Target) :
    (session.forget context target).backing? context target = none :=
  lookup_filter_self _ _

theorem backing?_forget_of_ne (session : Session α) {context other : ContextId}
    {target foreign : Target} (h : (other, foreign) ≠ (context, target)) :
    (session.forget context target).backing? other foreign = session.backing? other foreign :=
  lookup_filter_of_ne h _

@[simp] theorem backing?_insert_self (session : Session α) (context : ContextId) (target : Target)
    (set : RecordSet α) :
    (session.insert context target set).2.backing? context target = some set := by
  simp [insert, backing?]

theorem backing?_insert_of_ne (session : Session α) {context other : ContextId}
    {target foreign : Target} (h : (other, foreign) ≠ (context, target)) (set : RecordSet α) :
    (session.insert context target set).2.backing? other foreign =
      session.backing? other foreign := by
  rw [← backing?_forget_of_ne session h]
  simp only [insert, backing?, List.lookup_cons, beq_false_of_ne h]

end Session

end RecordQuery
