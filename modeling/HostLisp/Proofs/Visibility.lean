import HostLisp.Proofs.Confinement

/-!
What a binding changes. A name that is bound in a scope is seen from there and from the scopes inside,
unless a nearer scope binds it as well. Every other lookup has the outcome that it had before, and all
ways to ask for a name answer alike.
-/

namespace HostLisp

namespace Store

def contains (store : Store) (id : ScopeId) (name : String) : Bool := (store.find? id name).isSome

def Binds (store : Store) (id : ScopeId) (name : String) : Prop :=
  (store.scope id).bindings.contains name = true

/-- Going outwards from a scope one comes to the owner, and no scope before it binds the name. -/
def Sees (store : Store) (id : ScopeId) (name : String) (owner : ScopeId) : Prop :=
  ∃ front back, store.chain id = front ++ owner :: back ∧
    ∀ nearer ∈ front, ¬store.Binds nearer name

variable {store : Store} {id owner place : ScopeId} {name other : String} {value : Value}

theorem chain_of_parent? {outer : ScopeId} (next : store.parent? id = some outer) :
    store.chain id = id :: store.chain outer :=
  congrArg (id :: ·) (enclosing_of_parent? next).2

theorem chain_tail {front back : List ScopeId}
    (around : (store.scope id).enclosing = front ++ owner :: back) :
    ∃ outer, store.parent? id = some outer ∧ store.chain outer = front ++ owner :: back := by
  cases next : store.parent? id with
  | none =>
    rw [List.head?_eq_none_iff.mp next] at around
    exact absurd around.symm (List.append_ne_nil_of_right_ne_nil front (List.cons_ne_nil owner back))
  | some outer => exact ⟨outer, rfl, (enclosing_of_parent? next).2.symm.trans around⟩

theorem chain_split {front back : List ScopeId} (split : store.chain id = front ++ owner :: back) :
    store.chain owner = owner :: back ∧ ∀ nearer ∈ front, owner < nearer := by
  induction front generalizing id with
  | nil =>
    cases split
    exact ⟨rfl, nofun⟩
  | cons first front ih =>
    obtain ⟨rfl, around⟩ := List.cons.inj split
    have inside : owner ∈ (store.scope id).enclosing := by
      rw [around]
      exact List.mem_append_right front List.mem_cons_self
    have later := store.lt_of_mem_enclosing _ id rfl owner inside
    obtain ⟨outer, -, next⟩ := chain_tail around
    obtain ⟨behind, before⟩ := ih next
    exact ⟨behind, List.forall_mem_cons.mpr ⟨later, before⟩⟩

theorem find?_eq_some_iff :
    store.find? id name = some owner ↔ store.Sees id name owner ∧ store.Binds owner name := by
  unfold find? Sees Binds
  rw [List.find?_eq_some_iff_append]
  simp only [Bool.not_eq_true', Bool.not_eq_true]
  exact and_comm

theorem get?_eq_some_of_binds (binds : store.Binds owner name) :
    ∃ value, (store.scope owner).bindings.get? name = some value :=
  Option.isSome_iff_exists.mp binds

theorem resolve?_eq (store : Store) (id : ScopeId) (name : String) :
    store.resolve? id name =
      (store.find? id name).bind fun owner => (store.scope owner).bindings.get? name := by
  unfold resolve? find?
  induction store.chain id with
  | nil => rfl
  | cons first others ih =>
    rw [List.findSome?_cons, List.find?_cons, Table.contains]
    cases held : (store.scope first).bindings.get? name with
    | none => exact ih
    | some value => exact held.symm

section

variable {doc : Option String}

theorem enclosing_bind (store : Store) (place id : ScopeId) :
    ((store.bind place name value doc).scope id).enclosing = (store.scope id).enclosing := by
  rw [scope_bind]
  split
  · rfl
  · rfl

theorem chain_bind (store : Store) (place id : ScopeId) :
    (store.bind place name value doc).chain id = store.chain id :=
  congrArg (id :: ·) (store.enclosing_bind place id)

theorem root_bind (store : Store) (place id : ScopeId) :
    (store.bind place name value doc).root id = store.root id :=
  congrArg (·.getLastD id) (store.enclosing_bind place id)

variable (there : place < store.size)
include there

theorem get?_bind :
    ((store.bind place name value doc).scope id).bindings.get? other =
      if id = place ∧ other = name then some value else (store.scope id).bindings.get? other := by
  rw [scope_bind]
  by_cases here : place = id
  · subst here
    rw [if_pos ⟨rfl, there⟩]
    change ((store.scope place).bindings.insert name value).get? other = _
    rw [Table.get?_insert]
    simp only [true_and]
  · rw [if_neg fun changed => here changed.1, if_neg fun changed => here changed.1.symm]

theorem binds_bind_iff :
    (store.bind place name value doc).Binds id other ↔
      (id = place ∧ other = name) ∨ store.Binds id other := by
  unfold Binds Table.contains
  rw [get?_bind there]
  split
  · next changed => simp [changed]
  · next kept => simp [kept]

theorem sees_bind_iff :
    (store.bind place name value doc).Sees id name place ↔ store.Sees id name place := by
  unfold Sees
  rw [chain_bind]
  constructor
  · rintro ⟨front, back, split, free⟩
    exact ⟨front, back, split, fun nearer inside binds =>
      free nearer inside ((binds_bind_iff there).mpr (.inr binds))⟩
  · rintro ⟨front, back, split, free⟩
    refine ⟨front, back, split, fun nearer inside binds => ?_⟩
    obtain ⟨rfl, -⟩ | binds := (binds_bind_iff there).mp binds
    · exact Nat.lt_irrefl nearer ((chain_split split).2 nearer inside)
    · exact free nearer inside binds

theorem find?_bind_of_sees (sees : store.Sees id name place) :
    (store.bind place name value doc).find? id name = some place :=
  find?_eq_some_iff.mpr ⟨(sees_bind_iff there).mpr sees,
    (binds_bind_iff there).mpr (.inl ⟨rfl, rfl⟩)⟩

theorem resolve?_bind_of_sees (sees : store.Sees id name place) :
    (store.bind place name value doc).resolve? id name = some value := by
  rw [resolve?_eq, find?_bind_of_sees there sees, Option.bind_some,
    get?_bind there, if_pos ⟨rfl, rfl⟩]

theorem find?_bind_of_hidden (hidden : ¬(other = name ∧ store.Sees id name place)) :
    (store.bind place name value doc).find? id other = store.find? id other := by
  refine Option.ext fun owner => ?_
  rw [find?_eq_some_iff, find?_eq_some_iff]
  unfold Sees at hidden ⊢
  rw [chain_bind]
  constructor
  · rintro ⟨⟨front, back, split, free⟩, binds⟩
    have before : ∀ nearer ∈ front, ¬store.Binds nearer other := fun nearer inside binds =>
      free nearer inside ((binds_bind_iff there).mpr (.inr binds))
    obtain ⟨rfl, rfl⟩ | binds := (binds_bind_iff there).mp binds
    · exact absurd ⟨rfl, front, back, split, before⟩ hidden
    · exact ⟨⟨front, back, split, before⟩, binds⟩
  · rintro ⟨⟨front, back, split, free⟩, binds⟩
    refine ⟨⟨front, back, split, fun nearer inside changed => ?_⟩,
      (binds_bind_iff there).mpr (.inr binds)⟩
    obtain ⟨rfl, rfl⟩ | binds := (binds_bind_iff there).mp changed
    · -- The place lies before the owner, so one would come to it first.
      obtain ⟨first, second, rfl⟩ := List.append_of_mem inside
      refine hidden ⟨rfl, first, second ++ owner :: back, ?_, fun nearest among =>
        free nearest (List.mem_append_left _ among)⟩
      rw [split, List.append_assoc, List.cons_append]
    · exact free nearer inside binds

theorem resolve?_bind_of_hidden (hidden : ¬(other = name ∧ store.Sees id name place)) :
    (store.bind place name value doc).resolve? id other = store.resolve? id other := by
  rw [resolve?_eq, resolve?_eq, find?_bind_of_hidden there hidden]
  cases found : store.find? id other with
  | none => rfl
  | some owner =>
    rw [Option.bind_some, Option.bind_some, get?_bind there, if_neg]
    rintro ⟨rfl, rfl⟩
    exact hidden ⟨rfl, (find?_eq_some_iff.mp found).1⟩

end

theorem sees_root_iff (here : id < store.size) (outermost : (store.scope owner).enclosing = []) :
    store.Sees id name owner ↔
      store.root id = owner ∧ ∀ nearer ∈ store.chain id, nearer ≠ owner → ¬store.Binds nearer name := by
  have belongs : store.Belongs (store.root id) id := belongs_iff.mpr ⟨here, rfl⟩
  have itself : store.root owner = owner := by
    unfold Store.root
    rw [outermost]
    rfl
  constructor
  · rintro ⟨front, back, split, free⟩
    have inside : owner ∈ store.chain id := split ▸ List.mem_append_right front List.mem_cons_self
    refine ⟨(belongs.chain owner inside).root_eq.symm.trans itself, fun nearer among apart => ?_⟩
    have last : back = [] := (List.cons.inj (chain_split split).1).2.symm.trans outermost
    rw [split, last, List.mem_append, List.mem_singleton] at among
    exact free nearer (among.resolve_right apart)
  · rintro ⟨rfl, free⟩
    have inside : store.root id ∈ store.chain id := List.getLastD_mem_cons
    obtain ⟨front, back, split⟩ := List.append_of_mem inside
    refine ⟨front, back, split, fun nearer among => ?_⟩
    have later := (chain_split split).2 nearer among
    exact free nearer (split ▸ List.mem_append_left _ among) (Nat.ne_of_gt later)

theorem root_lt (there : place < store.size) : store.root place < store.size :=
  (belongs_iff.mp (Belongs.itself (belongs_iff.mpr ⟨there, rfl⟩))).1

theorem find?_bind_root_iff (there : place < store.size) (here : id < store.size)
    {doc : Option String} {bound : Store}
    (binding : store.bind (store.root place) name value doc = bound) :
    bound.find? id name = some (bound.root place) ↔
      bound.root id = bound.root place ∧
        ∀ nearer ∈ bound.chain id, nearer ≠ bound.root place → ¬bound.Binds nearer name := by
  subst binding
  have same : (store.bind (store.root place) name value doc).root place = store.root place :=
    store.root_bind (store.root place) place
  have outermost := (store.bind (store.root place) name value doc).enclosing_root place
  have binds : (store.bind (store.root place) name value doc).Binds (store.root place) name :=
    (binds_bind_iff (root_lt there)).mpr (.inl ⟨rfl, rfl⟩)
  rw [find?_eq_some_iff, ← sees_root_iff (by rwa [size_bind]) outermost, same]
  exact and_iff_left binds

end Store

def State.bound (state : State) (place : ScopeId) (name : String) (value : Value)
    (doc : Option String) : State :=
  { state with scopes := state.scopes.bind place name value doc }

structure Found (state : State) (id : ScopeId) (name : String) (value : Value) : Prop where
  contained : state.scopes.contains id name = true
  resolved : state.scopes.resolve? id name = some value
  looked : (Eval.lookup id name).outcome state = (.ok value, state)
  held : ∃ owner, state.scopes.find? id name = some owner ∧
    (state.scopes.scope owner).bindings.get? name = some value

structure Missing (state : State) (id : ScopeId) (name : String) : Prop where
  contained : state.scopes.contains id name = false
  resolved : state.scopes.resolve? id name = none
  looked : (Eval.lookup id name).outcome state = (.error (.failure (.unbound name)), state)
  held : state.scopes.find? id name = none

section

variable {state : State} {id : ScopeId} {name : String} {value : Value}

theorem found_iff : Found state id name value ↔ state.scopes.resolve? id name = some value := by
  refine ⟨Found.resolved, fun resolved => ?_⟩
  have looked := Eval.outcome_lookup id name state
  rw [resolved] at looked
  have held := resolved
  rw [Store.resolve?_eq, Option.bind_eq_some_iff] at held
  obtain ⟨owner, found, value⟩ := held
  exact ⟨Option.isSome_iff_exists.mpr ⟨owner, found⟩, resolved, looked, owner, found, value⟩

theorem missing_iff : Missing state id name ↔ state.scopes.resolve? id name = none := by
  refine ⟨Missing.resolved, fun resolved => ?_⟩
  have looked := Eval.outcome_lookup id name state
  rw [resolved] at looked
  have held : state.scopes.find? id name = none := by
    cases found : state.scopes.find? id name with
    | none => rfl
    | some owner =>
      obtain ⟨value, holds⟩ := Store.get?_eq_some_of_binds (Store.find?_eq_some_iff.mp found).2
      rw [Store.resolve?_eq, found, Option.bind_some, holds] at resolved
      cases resolved
  have contained : state.scopes.contains id name = false := by
    rw [Store.contains, held]
    rfl
  exact ⟨contained, resolved, looked, held⟩

theorem found_or_missing (state : State) (id : ScopeId) (name : String) :
    (∃ value, Found state id name value) ∨ Missing state id name := by
  simp only [found_iff, missing_iff]
  cases state.scopes.resolve? id name with
  | none => exact .inr rfl
  | some value => exact .inl ⟨value, rfl⟩

end

section

variable {state : State} {place id : ScopeId} {name other : String}

theorem State.found_bound (there : place < state.scopes.size) (value : Value) (doc : Option String)
    (sees : state.scopes.Sees id name place) : Found (state.bound place name value doc) id name value :=
  found_iff.mpr (Store.resolve?_bind_of_sees there sees)

theorem State.lookup_bound (there : place < state.scopes.size) (value : Value) (doc : Option String)
    (hidden : ¬(other = name ∧ state.scopes.Sees id name place)) :
    ((Eval.lookup id other).outcome (state.bound place name value doc)).1 =
      ((Eval.lookup id other).outcome state).1 := by
  have same : (state.bound place name value doc).scopes.resolve? id other =
      state.scopes.resolve? id other := Store.resolve?_bind_of_hidden there hidden
  rw [Eval.outcome_lookup, Eval.outcome_lookup, same]
  cases state.scopes.resolve? id other <;> rfl

end

theorem Engine.evaluate_global {host : Host} {depth : Nat} {before readied after : State}
    {place : ScopeId} {head expr : Expr} {name : String} {value : Value}
    (reaches : ((ofDepth host depth).evaluate place head).outcome before =
      (.ok (.form .setGlobal), readied))
    (completes : ((ofDepth host (depth + 1)).evaluate place
      (.list [head, .symbol name, expr])).outcome before = (.ok value, after)) :
    ∃ middle, ((ofDepth host depth).evaluate place expr).outcome readied = (.ok value, middle) ∧
      after = middle.bound (middle.scopes.root place) name value none := by
  rw [evaluate_form reaches rfl, perform, Eval.outcome_bind] at completes
  split at completes
  · next result middle ran =>
    have ends : (Except.ok result, middle.bound (middle.scopes.root place) name result none) =
      (Except.ok value, after) := completes
    cases ends
    exact ⟨middle, ran, rfl⟩
  · cases completes

/-- A binding is seen from a scope if one comes from there to the place of the binding before any other
scope that binds the name; every other lookup has the outcome that it had before. All ways to ask for a
name answer alike, whatever its value. So a global binding that completes is seen from just those scopes
under the same root on whose chain only the root binds the name. -/
theorem bindings_seen {host : Host} {leeway : Leeway} (abides : host.Abides leeway) :
    (∀ (state : State) (id : ScopeId) (name : String),
      (∃ value, Found state id name value) ∨ Missing state id name) ∧
    (∀ (state : State) (place : ScopeId), place < state.scopes.size →
      ∀ (name : String) (value : Value) (doc : Option String) (id : ScopeId) (other : String),
        (other = name ∧ state.scopes.Sees id name place →
          Found (state.bound place name value doc) id other value) ∧
        (¬(other = name ∧ state.scopes.Sees id name place) →
          ((Eval.lookup id other).outcome (state.bound place name value doc)).1 =
            ((Eval.lookup id other).outcome state).1 ∧
          (state.bound place name value doc).scopes.find? id other = state.scopes.find? id other)) ∧
    (∀ (depth : Nat) (before readied after : State) (place : ScopeId) (head expr : Expr)
      (name : String) (value : Value), place < before.scopes.size →
      ((Engine.ofDepth host depth).evaluate place head).outcome before =
        (.ok (.form .setGlobal), readied) →
      ((Engine.ofDepth host (depth + 1)).evaluate place
        (.list [head, .symbol name, expr])).outcome before = (.ok value, after) →
      ∃ middle, ((Engine.ofDepth host depth).evaluate place expr).outcome readied = (.ok value, middle) ∧
        after = middle.bound (middle.scopes.root place) name value none ∧
        ∀ id < after.scopes.size,
          (after.scopes.find? id name = some (after.scopes.root place) ↔
            after.scopes.root id = after.scopes.root place ∧
              ∀ nearer ∈ after.scopes.chain id, nearer ≠ after.scopes.root place →
                ¬after.scopes.Binds nearer name) ∧
          (after.scopes.find? id name = some (after.scopes.root place) →
            Found after id name value) ∧
          (after.scopes.find? id name ≠ some (after.scopes.root place) →
            ((Eval.lookup id name).outcome after).1 = ((Eval.lookup id name).outcome middle).1)) := by
  refine ⟨found_or_missing, fun state place there name value doc id other => ⟨?_, fun hidden => ?_⟩, ?_⟩
  · rintro ⟨rfl, sees⟩
    exact State.found_bound there value doc sees
  · exact ⟨State.lookup_bound there value doc hidden,
      Store.find?_bind_of_hidden there hidden⟩
  · intro depth before readied after place head expr name value here reaches completes
    obtain ⟨middle, ran, rfl⟩ := Engine.evaluate_global reaches completes
    have evolving := Engine.evolving_ofDepth abides depth
    have first := (evolving.evaluate place head before).grows.size
    have second := (evolving.evaluate place expr readied).grows.size
    rw [reaches] at first
    rw [ran] at second
    have there : place < middle.scopes.size := Nat.lt_of_lt_of_le here (Nat.le_trans first second)
    have outer := Store.root_lt there
    have same : (middle.bound (middle.scopes.root place) name value none).scopes.root place =
        middle.scopes.root place := middle.scopes.root_bind _ place
    refine ⟨middle, ran, rfl, fun id inside => ⟨?_, fun found => ?_, fun missed => ?_⟩⟩
    · have old : id < middle.scopes.size := (middle.scopes.size_bind _ name value none) ▸ inside
      exact Store.find?_bind_root_iff there old rfl
    · rw [same] at found
      have sees := (Store.sees_bind_iff outer).mp (Store.find?_eq_some_iff.mp found).1
      exact State.found_bound outer value none sees
    · refine State.lookup_bound outer value none fun ⟨_, sees⟩ => missed ?_
      rw [same]
      exact Store.find?_bind_of_sees outer sees

theorem bindings_seen_hidden :
    let fresh : State := { scopes := (Store.empty.fresh.1.child (some 0)).1 }
    let before := fresh.bound 1 "x" .nil none
    let define : Expr := .list [.value (.form .setGlobal) ⟨0, 0⟩, .symbol "x", .list []]
    let after := (((Engine.ofDepth Host.catalogue 2).evaluate 1 define).outcome before).2
    Found before 1 "x" .nil ∧ Found after 0 "x" (.list []) ∧
      ((Eval.lookup 1 "x").outcome after).1 = .ok .nil := by
  intro fresh before define after
  have abides : Host.catalogue.Abides .full := Native.abides_catalogue
  obtain ⟨-, effect, global⟩ := bindings_seen abides
  have hides : Found before 1 "x" .nil :=
    (effect fresh 1 (by decide) "x" .nil none 1 "x").1 ⟨rfl, [], [0], rfl, nofun⟩
  obtain ⟨middle, ran, -, seen⟩ := global 1 before before after 1 (.value (.form .setGlobal) ⟨0, 0⟩)
    (.list []) "x" (.list []) (by decide) rfl rfl
  cases ran
  obtain ⟨sees, found, -⟩ := seen 0 (by decide)
  obtain ⟨-, -, kept⟩ := seen 1 (by decide)
  have outermost : after.scopes.find? 0 "x" = some (after.scopes.root 1) :=
    sees.mpr ⟨rfl, fun nearer among apart => absurd (List.mem_singleton.mp among) apart⟩
  have nearer : after.scopes.find? 1 "x" ≠ some (after.scopes.root 1) := by decide +kernel
  exact ⟨hides, found outermost, (kept nearer).trans (congrArg Prod.fst hides.looked)⟩

end HostLisp
