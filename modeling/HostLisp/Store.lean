import HostLisp.Scope

/-!
Scopes live in a store and are known by their index there. A scope is made after the scopes around
it, and what is around the nearest of them is around it too, so every name is looked up along a
finite chain that ends in a root.
-/

namespace HostLisp

namespace Store

/-- The scopes of an array enclose each other like brackets. -/
def Nested (scopes : Array Scope) : Prop :=
  ∀ (id outer : ScopeId) (rest : List ScopeId), (scopes.getD id {}).enclosing = outer :: rest →
    outer < id ∧ (scopes.getD outer {}).enclosing = rest

theorem getD_push (scopes : Array Scope) (scope : Scope) (id : ScopeId) :
    (scopes.push scope).getD id {} = if id = scopes.size then scope else scopes.getD id {} := by
  simp only [Array.getD_eq_getD_getElem?, Array.getElem?_push]
  split <;> rfl

theorem getD_modify (scopes : Array Scope) (place : ScopeId) (change : Scope → Scope)
    (id : ScopeId) :
    (scopes.modify place change).getD id {} =
      if place = id ∧ id < scopes.size then change (scopes.getD id {}) else scopes.getD id {} := by
  simp only [Array.getD_eq_getD_getElem?, Array.getElem?_modify]
  by_cases here : place = id
  · by_cases bound : id < scopes.size
    · simp [here, bound]
    · simp [here, bound]
  · simp [here]

theorem nested_empty : Nested #[] := by
  intro id outer rest around
  simp at around

theorem Nested.push {scopes : Array Scope} (nested : Nested scopes) {scope : Scope}
    (fits : ∀ outer rest, scope.enclosing = outer :: rest →
      outer < scopes.size ∧ (scopes.getD outer {}).enclosing = rest) :
    Nested (scopes.push scope) := by
  intro id outer rest around
  rw [getD_push] at around
  split at around
  · next new =>
    obtain ⟨older, same⟩ := fits outer rest around
    rw [getD_push, if_neg (Nat.ne_of_lt older)]
    exact ⟨new ▸ older, same⟩
  · next old =>
    obtain ⟨older, same⟩ := nested id outer rest around
    have bound : id < scopes.size := by
      by_cases bound : id < scopes.size
      · exact bound
      · simp [Array.getD, bound] at around
    rw [getD_push, if_neg (Nat.ne_of_lt (Nat.lt_trans older bound))]
    exact ⟨older, same⟩

theorem Nested.modify {scopes : Array Scope} (nested : Nested scopes) (place : ScopeId)
    {change : Scope → Scope} (keeps : ∀ scope, (change scope).enclosing = scope.enclosing) :
    Nested (scopes.modify place change) := by
  have same : ∀ id, ((scopes.modify place change).getD id {}).enclosing =
      (scopes.getD id {}).enclosing := by
    intro id
    rw [getD_modify]
    split
    · exact keeps _
    · rfl
  intro id outer rest around
  rw [same] at around
  rw [same]
  exact nested id outer rest around

end Store

structure Store where
  scopes : Array Scope
  nested : Store.Nested scopes

namespace Store

def empty : Store := ⟨#[], nested_empty⟩

instance : Inhabited Store := ⟨empty⟩

def size (store : Store) : Nat := store.scopes.size

/-- The scope of an index; beyond the store there are only empty ones. -/
def scope (store : Store) (id : ScopeId) : Scope := store.scopes.getD id {}

def chain (store : Store) (id : ScopeId) : List ScopeId := id :: (store.scope id).enclosing

def find? (store : Store) (id : ScopeId) (name : String) : Option ScopeId :=
  (store.chain id).find? fun other => (store.scope other).bindings.contains name

def resolve? (store : Store) (id : ScopeId) (name : String) : Option Value :=
  (store.chain id).findSome? fun other => (store.scope other).bindings.get? name

def doc (store : Store) (id : ScopeId) (name : String) : String :=
  ((store.chain id).findSome? fun other => (store.scope other).docs.get? name).getD ""

def root (store : Store) (id : ScopeId) : ScopeId := (store.scope id).enclosing.getLastD id

/-- What encloses a new scope inside a given one, if any; there is no inside beyond the store. -/
def inside (store : Store) : Option ScopeId → List ScopeId
  | none => []
  | some id => if id < store.size then store.chain id else []

theorem inside_eq_cons {store : Store} {around : Option ScopeId} {outer : ScopeId}
    {rest : List ScopeId} (inner : store.inside around = outer :: rest) :
    outer < store.size ∧ (store.scope outer).enclosing = rest := by
  cases around with
  | none => cases inner
  | some id =>
    simp only [inside] at inner
    split at inner
    · next bound =>
      simp only [chain, List.cons.injEq] at inner
      obtain ⟨rfl, rfl⟩ := inner
      exact ⟨bound, rfl⟩
    · simp at inner

def child (store : Store) (around : Option ScopeId) : Store × ScopeId :=
  (⟨store.scopes.push { enclosing := store.inside around },
    store.nested.push fun _ _ inner => inside_eq_cons inner⟩, store.size)

def fresh (store : Store) : Store × ScopeId := store.child none

def bind (store : Store) (id : ScopeId) (name : String) (value : Value)
    (doc : Option String := none) : Store :=
  ⟨store.scopes.modify id (·.bind name value doc), store.nested.modify id fun _ => rfl⟩

/-- What a scope is written as, with room for texts that nest: its bindings, and the exact picture also
those of all scopes around it. -/
def look (store : Store) : Nat → Bool → ScopeId → Value
  | 0, _, _ => .picture "" 0 (some .nesting)
  | room + 1, true, id =>
    let scopes := (store.chain id).map fun other => (store.scope other).pictured (store.look room)
    .picture ("<Scope chain: " ++ " -> ".intercalate (scopes.map Scope.frame) ++ ">")
      (Tree.total (scopes.map Scope.unseen)) (scopes.findSome? (Scope.flaw? room))
  | room + 1, false, id =>
    let scope := (store.scope id).pictured (store.look room)
    .picture (scope.frame ++ (if scope.enclosing.isEmpty then "" else " -> ..."))
      scope.unseen (scope.flaw? room)

@[simp] theorem size_child (store : Store) (around : Option ScopeId) :
    (store.child around).1.size = store.size + 1 := by
  simp [child, size]

@[simp] theorem size_bind (store : Store) (id : ScopeId) (name : String) (value : Value)
    (doc : Option String) : (store.bind id name value doc).size = store.size := by
  simp [bind, size]

theorem scope_child (store : Store) (around : Option ScopeId) (other : ScopeId) :
    (store.child around).1.scope other =
      if other = store.size then { enclosing := store.inside around } else store.scope other :=
  getD_push store.scopes _ other

theorem scope_bind (store : Store) (id : ScopeId) (name : String) (value : Value)
    (doc : Option String) (other : ScopeId) :
    (store.bind id name value doc).scope other =
      if id = other ∧ other < store.size then (store.scope other).bind name value doc
      else store.scope other :=
  getD_modify store.scopes id _ other

end Store

end HostLisp
