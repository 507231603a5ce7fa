import HostLisp.Proofs.Parts
import HostLisp.Session

/-!
What the scopes of a store hold. If all values that are bound have a property, they keep it as long as
only such values are bound.
-/

namespace HostLisp

open Value

namespace Store

def Holds (good : Value → Prop) (store : Store) : Prop :=
  ∀ id name value, (store.scope id).bindings.get? name = some value → good value

variable {good : Value → Prop} {store : Store}

theorem holds_empty : empty.Holds good := by
  intro id name value bound
  cases bound

namespace Holds

theorem resolve? (holds : store.Holds good) {id : ScopeId} {name : String} {value : Value}
    (resolved : store.resolve? id name = some value) : good value := by
  obtain ⟨other, -, bound⟩ := List.exists_of_findSome?_eq_some resolved
  exact holds other name value bound

theorem bind (holds : store.Holds good) (id : ScopeId) (name : String) {value : Value}
    (held : good value) (doc : Option String) : (store.bind id name value doc).Holds good := by
  intro other found result bound
  rw [scope_bind] at bound
  split at bound
  · simp only [Scope.bind, Table.get?_insert] at bound
    split at bound
    · cases bound
      exact held
    · exact holds other found result bound
  · exact holds other found result bound

theorem child (holds : store.Holds good) (around : Option ScopeId) :
    (store.child around).1.Holds good := by
  intro other name value bound
  rw [scope_child] at bound
  split at bound
  · cases bound
  · exact holds other name value bound

theorem bindAll (holds : store.Holds good) (id : ScopeId) {bindings : List Binding}
    (each : ∀ binding ∈ bindings, good binding.value) : (store.bindAll id bindings).Holds good := by
  induction bindings generalizing store with
  | nil => exact holds
  | cons binding bindings ih =>
    obtain ⟨held, others⟩ := List.forall_mem_cons.mp each
    exact ih (holds.bind id binding.name held binding.doc) others

end Holds

end Store

theorem Session.holds_initial {good : Value → Prop} {bindings : List Binding}
    (each : ∀ binding ∈ bindings, good binding.value) : (initial bindings).scopes.Holds good :=
  (Store.holds_empty.child none).bindAll _ each

theorem Binding.common_standard {sort : Value → Prop} (rare : Rare sort) :
    ∀ binding ∈ core ++ catalogue, ∀ part, Inside part binding.value → ¬sort part := by
  have plain : ∀ binding ∈ core ++ catalogue, binding.value.isRare = false ∧
      ∀ piece ∈ binding.value.pieces, piece.isRare = false ∧ piece.pieces.isEmpty = true := by
    decide
  intro binding among part inside sorted
  obtain ⟨common, pieces⟩ := plain binding among
  have drawn : Drawn sort [] binding.value := by
    refine rare.drawn common fun piece among => ?_
    obtain ⟨common, leaf⟩ := pieces piece among
    exact rare.leaf common (List.isEmpty_iff.mp leaf)
  obtain ⟨_, among, _⟩ := drawn part inside sorted
  cases among

end HostLisp
