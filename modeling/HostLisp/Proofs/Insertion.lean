import HostLisp.Proofs.Documentation
import Mathlib.Data.List.Basic

/-!
The order of insertion. A table has every name once, where the name was first entered, with what was
entered for it last. The two tables of a scope are filled by the same bindings: all of them give
values, and some of them documentation as well. Nothing else that is done to a store touches the tables
of a scope, so the history of its bindings tells what is shown when the scope is written.
-/

namespace HostLisp

namespace Table

variable {α : Type}

/-- Entries that have every name given once, in the order in which the names were first given, and with
a name what was given for it last. -/
structure Lists (entries given : List (String × α)) : Prop where
  once : (entries.map (·.1)).Nodup
  order : entries.map (·.1) = (given.map (·.1)).eraseDups
  last : ∀ name value, (name, value) ∈ entries ↔ given.reverse.lookup name = some value

theorem eraseDups_concat (names : List String) (name : String) :
    (names ++ [name]).eraseDups =
      if name ∈ names then names.eraseDups else names.eraseDups ++ [name] := by
  rw [List.eraseDups_append, List.cons_removeAll, List.nil_removeAll]
  by_cases known : name ∈ names
  · rw [if_pos known, if_neg (by simp [known])]
    exact List.append_nil _
  · rw [if_neg known, if_pos (by simp [known])]
    rfl

theorem lookup_concat (given : List (String × α)) (name other : String) (value : α) :
    (given ++ [(name, value)]).reverse.lookup other =
      if other = name then some value else given.reverse.lookup other := by
  rw [List.reverse_concat]
  exact lookup_cons_eq_ite name other value given.reverse

theorem lookup_eq_some_iff {entries : List (String × α)} (once : (entries.map (·.1)).Nodup)
    {name : String} {value : α} : entries.lookup name = some value ↔ (name, value) ∈ entries := by
  induction entries with
  | nil => simp
  | cons entry entries ih =>
    obtain ⟨key, held⟩ := entry
    obtain ⟨apart, others⟩ := List.nodup_cons.mp once
    rw [lookup_cons_eq_ite, List.mem_cons, Prod.mk.injEq]
    by_cases here : name = key
    · subst here
      have absent : (name, value) ∉ entries := fun among =>
        apart (List.mem_map.mpr ⟨(name, value), among, rfl⟩)
      simp [absent, eq_comm]
    · rw [if_neg here, ih others]
      simp [here]

theorem nodup_insertEntry {entries : List (String × α)} (once : (entries.map (·.1)).Nodup)
    (name : String) (value : α) : ((insertEntry name value entries).map (·.1)).Nodup := by
  rw [map_insertEntry]
  by_cases known : name ∈ entries.map (·.1)
  · rwa [if_pos known]
  · rw [if_neg known, List.nodup_append]
    refine ⟨once, List.pairwise_singleton _ name, ?_⟩
    intro key among other same
    rw [List.mem_singleton.mp same]
    exact fun found => known (found ▸ among)

theorem lists_nil : Lists ([] : List (String × α)) [] where
  once := List.nodup_nil
  order := rfl
  last _ _ := by simp

namespace Lists

variable {entries given : List (String × α)}

theorem lookup_eq (lists : Lists entries given) (name : String) :
    entries.lookup name = given.reverse.lookup name :=
  Option.ext fun value => (lookup_eq_some_iff lists.once).trans (lists.last name value)

theorem enter (lists : Lists entries given) (name : String) (value : α) :
    Lists (insertEntry name value entries) (given ++ [(name, value)]) where
  once := nodup_insertEntry lists.once name value
  order := by
    rw [map_insertEntry, lists.order, List.map_append, List.map_singleton, eraseDups_concat]
    simp only [List.mem_eraseDups]
  last other held := by
    rw [← lookup_eq_some_iff (nodup_insertEntry lists.once name value), lookup_insertEntry,
      lookup_concat, lists.lookup_eq]

end Lists

end Table

namespace Binding

def entry (binding : Binding) : String × Value := (binding.name, binding.value)

def documented? (binding : Binding) : Option (String × String) :=
  binding.doc.map fun doc => (binding.name, doc)

end Binding

structure Scope.Records (scope : Scope) (past : List Binding) : Prop where
  values : Table.Lists scope.bindings.entries (past.map Binding.entry)
  docs : Table.Lists scope.docs.entries (past.filterMap Binding.documented?)

theorem Scope.records_empty (enclosing : List ScopeId) : ({ enclosing } : Scope).Records [] :=
  ⟨Table.lists_nil, Table.lists_nil⟩

theorem Scope.Records.bind {scope : Scope} {past : List Binding} (records : scope.Records past)
    (binding : Binding) :
    (scope.bind binding.name binding.value binding.doc).Records (past ++ [binding]) where
  values := by
    rw [List.map_append]
    exact records.values.enter binding.name binding.value
  docs := by
    rw [List.filterMap_append]
    unfold Scope.bind
    cases given : binding.doc with
    | none =>
      have silent : [binding].filterMap Binding.documented? = [] := by
        simp [Binding.documented?, given]
      rw [silent, List.append_nil]
      exact records.docs
    | some doc =>
      have told : [binding].filterMap Binding.documented? = [(binding.name, doc)] := by
        simp [Binding.documented?, given]
      rw [told]
      exact records.docs.enter binding.name doc

namespace Store

/-- The bindings made in a scope since it was new, in their order, whatever else has been done to the
store in between. -/
inductive History (id : ScopeId) : Store → List Binding → Prop where
  | child {store : Store} (around : Option ScopeId) (new : id = store.size) :
      History id (store.child around).1 []
  | bind {store : Store} {past : List Binding} (binding : Binding) (earlier : History id store past) :
      History id (store.bind id binding.name binding.value binding.doc) (past ++ [binding])
  | bindElsewhere {store : Store} {past : List Binding} {other : ScopeId} (apart : other ≠ id)
      (name : String) (value : Value) (doc : Option String) (earlier : History id store past) :
      History id (store.bind other name value doc) past
  | childElsewhere {store : Store} {past : List Binding} (around : Option ScopeId)
      (earlier : History id store past) : History id (store.child around).1 past

variable {store before after : Store} {id : ScopeId} {past : List Binding}

theorem History.lt_size (history : History id store past) : id < store.size := by
  induction history with
  | child around new =>
    rw [size_child, new]
    exact Nat.lt_succ_self _
  | bind binding _ ih => rwa [size_bind]
  | bindElsewhere _ name value doc _ ih => rwa [size_bind]
  | childElsewhere around _ ih =>
    rw [size_child]
    exact Nat.lt_succ_of_lt ih

theorem History.records (history : History id store past) : (store.scope id).Records past := by
  induction history with
  | child around new =>
    rw [scope_child, if_pos new]
    exact Scope.records_empty _
  | bind binding earlier ih =>
    rw [scope_bind, if_pos ⟨rfl, earlier.lt_size⟩]
    exact ih.bind binding
  | bindElsewhere apart name value doc _ ih =>
    rwa [scope_bind, if_neg fun changed => apart changed.1]
  | childElsewhere around earlier ih => rwa [scope_child, if_neg (Nat.ne_of_lt earlier.lt_size)]

theorem History.bindAll (history : History id store past) (bindings : List Binding) :
    History id (store.bindAll id bindings) (past ++ bindings) := by
  induction bindings generalizing store past with
  | nil => rwa [List.append_nil]
  | cons binding bindings ih =>
    rw [List.append_cons]
    exact ih (history.bind binding)

theorem Made.history (made : Made store) (there : id < store.size) : ∃ past, History id store past := by
  induction made with
  | empty => exact absurd there (Nat.not_lt_zero id)
  | @child store around _ ih =>
    by_cases new : id = store.size
    · exact ⟨[], .child around new⟩
    · rw [size_child] at there
      obtain ⟨past, history⟩ := ih (Nat.lt_of_le_of_ne (Nat.le_of_lt_succ there) new)
      exact ⟨past, history.childElsewhere around⟩
  | bind place name value doc _ ih =>
    rw [size_bind] at there
    obtain ⟨past, history⟩ := ih there
    by_cases here : place = id
    · subst here
      exact ⟨past ++ [⟨name, value, doc⟩], history.bind ⟨name, value, doc⟩⟩
    · exact ⟨past, history.bindElsewhere here name value doc⟩

def GoesOn (id : ScopeId) (past : List Binding) (after : Store) : Prop :=
  ∃ more, (∀ binding ∈ more, binding.doc = none) ∧ History id after (past ++ more)

theorem History.goesOn (history : History id before past) (evolves : Evolves before after) :
    GoesOn id past after := by
  induction evolves with
  | now => exact ⟨[], List.forall_mem_nil _, by rwa [List.append_nil]⟩
  | bind place name value _ ih =>
    obtain ⟨more, silent, history⟩ := ih
    by_cases here : place = id
    · subst here
      refine ⟨more ++ [⟨name, value, none⟩], ?_, ?_⟩
      · intro binding among
        rcases List.mem_append.mp among with among | among
        · exact silent binding among
        · rw [List.mem_singleton.mp among]
      · rw [← List.append_assoc]
        exact history.bind ⟨name, value, none⟩
    · exact ⟨more, silent, history.bindElsewhere here name value none⟩
  | child around _ ih =>
    obtain ⟨more, silent, history⟩ := ih
    exact ⟨more, silent, history.childElsewhere around⟩

end Store

open Store

end HostLisp
