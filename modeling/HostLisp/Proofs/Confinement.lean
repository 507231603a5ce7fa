import HostLisp.Proofs.Applications
import HostLisp.Proofs.Growth
import HostLisp.Proofs.Holdings

/-!
Roots are confined. What runs in the scopes of one root comes to no scope of another root that was
there before. The scopes that it makes, and those that closures and scopes among its values stand for,
belong to its root or to a root that was made on the way: a closure may be made that captures no scope.
Scopes of other roots stay as they are.
-/

namespace HostLisp

open Value

namespace Store

def parent? (store : Store) (id : ScopeId) : Option ScopeId := (store.scope id).enclosing.head?

/-- The scopes from which one comes to a root by going outwards. -/
inductive Belongs (store : Store) (root : ScopeId) : ScopeId → Prop where
  | root (there : root < store.size) (outermost : store.parent? root = none) : Belongs store root root
  | inside {id outer : ScopeId} (next : store.parent? id = some outer)
      (outside : Belongs store root outer) : Belongs store root id

def Home (store : Store) (roots : ScopeId → Prop) (id : ScopeId) : Prop :=
  ∃ root, roots root ∧ store.Belongs root id

/-- Whatever holds on to a scope in a value holds on to a scope of the roots. -/
def Owns (store : Store) (roots : ScopeId → Prop) (value : Value) : Prop :=
  ∀ part, Inside part value → ∀ scope, part.captured? = some scope → store.Home roots scope

def Closed (store : Store) (roots : ScopeId → Prop) : Prop :=
  ∀ id, store.Home roots id → ∀ name value, (store.scope id).bindings.get? name = some value →
    store.Owns roots value

def Open (store : Store) (roots : ScopeId → Prop) : Prop := ∀ id, store.size ≤ id → roots id

variable {store before middle after : Store} {root id outer : ScopeId} {roots : ScopeId → Prop}

theorem enclosing_of_parent? (next : store.parent? id = some outer) :
    outer < id ∧ (store.scope id).enclosing = outer :: (store.scope outer).enclosing := by
  unfold parent? at next
  cases around : (store.scope id).enclosing with
  | nil =>
    rw [around] at next
    cases next
  | cons first rest =>
    rw [around] at next
    cases next
    obtain ⟨older, same⟩ := store.nested id outer rest around
    exact ⟨older, congrArg (outer :: ·) same.symm⟩

theorem root_of_parent? (next : store.parent? id = some outer) : store.root id = store.root outer := by
  unfold Store.root
  rw [(enclosing_of_parent? next).2, List.getLastD_cons]

theorem scope_beyond (beyond : ¬id < store.size) : store.scope id = {} := by
  unfold Store.scope
  simp [Array.getD, show ¬id < store.scopes.size from beyond]

theorem lt_size_of_parent? (next : store.parent? id = some outer) : id < store.size := by
  by_cases there : id < store.size
  · exact there
  · unfold parent? at next
    rw [scope_beyond there] at next
    cases next

theorem belongs_iff : store.Belongs root id ↔ id < store.size ∧ store.root id = root := by
  constructor
  · intro belongs
    induction belongs with
    | root there outermost =>
      refine ⟨there, ?_⟩
      unfold Store.root
      rw [List.head?_eq_none_iff.mp outermost]
      rfl
    | inside next _ ih => exact ⟨lt_size_of_parent? next, (root_of_parent? next).trans ih.2⟩
  · rintro ⟨there, rfl⟩
    induction id using Nat.strongRecOn with
    | ind id ih =>
      cases next : store.parent? id with
      | none =>
        have itself : store.root id = id := by
          unfold Store.root
          rw [List.head?_eq_none_iff.mp next]
          rfl
        rw [itself]
        exact .root there next
      | some outer =>
        have older := (enclosing_of_parent? next).1
        rw [root_of_parent? next]
        exact .inside next (ih outer older (Nat.lt_trans older there))

theorem Belongs.root_eq (belongs : store.Belongs root id) : store.root id = root :=
  (belongs_iff.mp belongs).2

theorem Belongs.itself (belongs : store.Belongs root id) : store.Belongs root root := by
  induction belongs with
  | root there outermost => exact .root there outermost
  | inside _ _ ih => exact ih

theorem Belongs.outermost (belongs : store.Belongs root id) : store.parent? root = none := by
  induction belongs with
  | root _ outermost => exact outermost
  | inside _ _ ih => exact ih

theorem Belongs.chain (belongs : store.Belongs root id) :
    ∀ other ∈ store.chain id, store.Belongs root other := by
  induction belongs with
  | root there outermost =>
    unfold Store.chain
    rw [List.head?_eq_none_iff.mp outermost]
    exact List.forall_mem_singleton.mpr (.root there outermost)
  | @inside id outer next outside ih =>
    unfold Store.chain
    rw [(enclosing_of_parent? next).2]
    exact List.forall_mem_cons.mpr ⟨.inside next outside, ih⟩

theorem Grows.belongs_iff (grows : Grows before after) (old : id < before.size) :
    after.Belongs root id ↔ before.Belongs root id := by
  have same : after.root id = before.root id := by
    unfold Store.root
    rw [grows.enclosing id old]
  rw [Store.belongs_iff, Store.belongs_iff, same]
  exact and_congr_left fun _ => ⟨fun _ => old, fun _ => Nat.lt_of_lt_of_le old grows.size⟩

theorem Belongs.grows (belongs : before.Belongs root id) (grows : Grows before after) :
    after.Belongs root id :=
  (grows.belongs_iff (Store.belongs_iff.mp belongs).1).mpr belongs

theorem Home.there (home : store.Home roots id) : id < store.size := by
  obtain ⟨_, _, belongs⟩ := home
  exact (belongs_iff.mp belongs).1

theorem Home.weaken {more : ScopeId → Prop} (home : store.Home roots id)
    (larger : ∀ root, roots root → more root) : store.Home more id := by
  obtain ⟨root, among, belongs⟩ := home
  exact ⟨root, larger root among, belongs⟩

theorem Home.chain (home : store.Home roots id) : ∀ other ∈ store.chain id, store.Home roots other := by
  obtain ⟨root, among, belongs⟩ := home
  exact fun other around => ⟨root, among, belongs.chain other around⟩

theorem Home.outermost (home : store.Home roots id) : store.Home roots (store.root id) := by
  obtain ⟨root, among, belongs⟩ := home
  rw [belongs.root_eq]
  exact ⟨root, among, belongs.itself⟩

theorem Grows.home_iff (grows : Grows before after) (old : id < before.size) :
    after.Home roots id ↔ before.Home roots id :=
  exists_congr fun _ => and_congr_right fun _ => grows.belongs_iff old

theorem Home.grows (home : before.Home roots id) (grows : Grows before after) : after.Home roots id :=
  (grows.home_iff home.there).mpr home

theorem Owns.grows {value : Value} (owns : before.Owns roots value) (grows : Grows before after) :
    after.Owns roots value :=
  fun part inside scope captured => (owns part inside scope captured).grows grows

theorem Open.grows (opens : before.Open roots) (grows : Grows before after) : after.Open roots :=
  fun id new => opens id (Nat.le_trans grows.size new)

theorem owns_of_drawn {given : List Value} {value : Value} (drawn : Drawn Captures given value)
    (each : ∀ source ∈ given, store.Owns roots source) : store.Owns roots value := by
  intro part inside scope captured
  have captures : Captures part := by
    unfold Captures
    rw [captured]
    rfl
  obtain ⟨source, among, within⟩ := drawn part inside captures
  exact each source among part within scope captured

theorem owns_closure {params : List String} {body : List Expr} {around : Option ScopeId} (stamp : Stamp)
    (home : ∀ scope, around = some scope → store.Home roots scope)
    (each : ∀ expr ∈ body, store.Owns roots (.code expr)) :
    store.Owns roots (.closure params body around stamp) := by
  intro part inside other captured
  cases inside with
  | whole => exact home other captured
  | deeper among inside =>
    obtain ⟨expr, present, rfl⟩ := List.mem_map.mp among
    exact each expr present part inside other captured

theorem owns_scope (home : store.Home roots id) : store.Owns roots (.scope id) := by
  intro part inside other captured
  cases inside with
  | whole =>
    cases captured
    exact home
  | deeper among _ => cases among

theorem Closed.owns_resolve? (closed : store.Closed roots) (home : store.Home roots id)
    {name : String} {value : Value} (resolved : store.resolve? id name = some value) :
    store.Owns roots value := by
  obtain ⟨other, among, bound⟩ := List.exists_of_findSome?_eq_some resolved
  exact closed other (home.chain other among) name value bound

theorem home_child {around : Option ScopeId} (opens : store.Open roots)
    (home : ∀ scope, around = some scope → store.Home roots scope) :
    (store.child around).1.Home roots store.size := by
  cases around with
  | none =>
    refine ⟨store.size, opens _ (Nat.le_refl _), .root ?_ ?_⟩
    · rw [size_child]
      exact Nat.lt_succ_self _
    · unfold parent?
      rw [scope_child, if_pos rfl]
      rfl
  | some scope =>
    obtain ⟨root, among, belongs⟩ := home scope rfl
    have next : (store.child scope).1.parent? store.size = some scope := by
      unfold parent?
      rw [scope_child, if_pos rfl, inside, if_pos (belongs_iff.mp belongs).1]
      rfl
    exact ⟨root, among, .inside next (belongs.grows (.child store scope))⟩

/-- What code of some roots makes of a store: scopes of the roots and nothing else. -/
structure Confined (roots : ScopeId → Prop) (before after : Store) : Prop where
  grows : Grows before after
  closed : after.Closed roots
  made : ∀ id, before.size ≤ id → id < after.size → after.Home roots id
  others : ∀ id < before.size, ¬before.Home roots id → after.scope id = before.scope id

namespace Confined

theorem refl (closed : store.Closed roots) : Confined roots store store :=
  ⟨.refl store, closed, fun _ new old => absurd old (Nat.not_lt.mpr new), fun _ _ _ => rfl⟩

theorem trans (first : Confined roots before middle) (second : Confined roots middle after) :
    Confined roots before after := by
  refine ⟨first.grows.trans second.grows, second.closed, ?_, ?_⟩
  · intro id new there
    by_cases earlier : id < middle.size
    · exact (first.made id new earlier).grows second.grows
    · exact second.made id (Nat.not_lt.mp earlier) there
  · intro id old elsewhere
    have kept : id < middle.size := Nat.lt_of_lt_of_le old first.grows.size
    rw [second.others id kept fun home => elsewhere ((first.grows.home_iff old).mp home)]
    exact first.others id old elsewhere

theorem bind {scope : ScopeId} (name : String) {value : Value} (closed : store.Closed roots)
    (here : store.Home roots scope) (owns : store.Owns roots value) :
    Confined roots store (store.bind scope name value) := by
  have grows : Grows store (store.bind scope name value) := .bind store scope name value
  refine ⟨grows, ?_, ?_, ?_⟩
  · intro id home other found bound
    have old : id < store.size := by
      rw [← size_bind store scope name value none]
      exact home.there
    have held : (store.scope id).bindings.get? other = some found ∨ found = value := by
      rw [scope_bind] at bound
      split at bound
      · simp only [Scope.bind, Table.get?_insert] at bound
        split at bound
        · cases bound
          exact .inr rfl
        · exact .inl bound
      · exact .inl bound
    rcases held with earlier | rfl
    · exact (closed id ((grows.home_iff old).mp home) other found earlier).grows grows
    · exact owns.grows grows
  · intro id new there
    rw [size_bind] at there
    exact absurd there (Nat.not_lt.mpr new)
  · intro id _ elsewhere
    rw [scope_bind, if_neg]
    rintro ⟨rfl, -⟩
    exact elsewhere here

theorem child {around : Option ScopeId} (closed : store.Closed roots) (opens : store.Open roots)
    (home : ∀ scope, around = some scope → store.Home roots scope) :
    Confined roots store (store.child around).1 := by
  have grows : Grows store (store.child around).1 := .child store around
  refine ⟨grows, ?_, ?_, ?_⟩
  · intro id here name value bound
    rw [scope_child] at bound
    split at bound
    · cases bound
    · next other =>
      have there := here.there
      rw [size_child] at there
      have old : id < store.size := Nat.lt_of_le_of_ne (Nat.le_of_lt_succ there) other
      exact (closed id ((grows.home_iff old).mp here) name value bound).grows grows
  · intro id new there
    rw [size_child] at there
    rw [Nat.le_antisymm (Nat.le_of_lt_succ there) new]
    exact home_child opens home
  · intro id old _
    rw [scope_child, if_neg (Nat.ne_of_lt old)]

end Confined

end Store

/-- A computation of some roots is confined, however it ends, and what it finds is of the roots. -/
structure Confines {α : Type} (roots : ScopeId → Prop) (found : α → List Value) (act : Eval α)
    (state : State) : Prop where
  confined : state.scopes.Confined roots (act.outcome state).2.scopes
  owned : ∀ result, (act.outcome state).1 = .ok result → ∀ value ∈ found result,
    (act.outcome state).2.scopes.Owns roots value

namespace Confines

variable {α β : Type} {roots : ScopeId → Prop} {found : α → List Value} {state : State}

theorem of_own {may : Fault → Prop} {act : Eval α} (acts : act.Own may)
    (closed : state.scopes.Closed roots)
    (owned : ∀ result, (act.outcome state).1 = .ok result → ∀ value ∈ found result,
      state.scopes.Owns roots value) : Confines roots found act state := by
  have same := acts.scopes state
  constructor
  · rw [same]
    exact .refl closed
  · rw [same]
    exact owned

theorem andThen {act : Eval α} {next : α → Eval β} {further : β → List Value}
    (first : Confines roots found act state)
    (rest : ∀ result after, state.scopes.Confined roots after.scopes →
      (∀ value ∈ found result, after.scopes.Owns roots value) →
        Confines roots further (next result) after) :
    Confines roots further (act >>= next) state := by
  obtain ⟨confined, owned⟩ := first
  rcases ran : act.outcome state with ⟨result, after⟩
  rw [ran] at confined owned
  cases result with
  | error fault =>
    constructor
    · rwa [Eval.outcome_bind_error ran]
    · rw [Eval.outcome_bind_error ran]
      exact nofun
  | ok result =>
    obtain ⟨later, owns⟩ := rest result after confined (owned result rfl)
    constructor
    · rw [Eval.outcome_bind_ok ran]
      exact confined.trans later
    · rw [Eval.outcome_bind_ok ran]
      exact owns

theorem recover {act : Eval α} {handler : Fault → Eval α} (tries : Confines roots found act state)
    (goesOn : ∀ fault after, state.scopes.Confined roots after.scopes →
      Confines roots found (handler fault) after) :
    Confines roots found (tryCatch act handler) state := by
  obtain ⟨confined, owned⟩ := tries
  have ended := Eval.outcome_tryCatch act handler state
  rcases ran : act.outcome state with ⟨result, after⟩
  rw [ran] at confined owned ended
  cases result with
  | error fault =>
    obtain ⟨later, owns⟩ := goesOn fault after confined
    constructor
    · rw [ended]
      exact confined.trans later
    · rw [ended]
      exact owns
  | ok result =>
    constructor
    · rwa [ended]
    · rwa [ended]

theorem child {around : Option ScopeId} {given : List Value} {run : ScopeId → Eval α}
    (closed : state.scopes.Closed roots) (opens : state.scopes.Open roots)
    (home : ∀ scope, around = some scope → state.scopes.Home roots scope)
    (known : ∀ value ∈ given, state.scopes.Owns roots value)
    (inside : ∀ inner {state : State}, state.scopes.Closed roots → state.scopes.Open roots →
      (∀ scope, some inner = some scope → state.scopes.Home roots scope) →
      (∀ value ∈ given, state.scopes.Owns roots value) → Confines roots found (run inner) state) :
    Confines roots found (Eval.child around >>= run) state := by
  have confined : state.scopes.Confined roots (state.scopes.child around).1 := .child closed opens home
  have ran := Eval.outcome_child around state
  have entered : Confines roots found (run state.scopes.size) ((Eval.child around).outcome state).2 := by
    refine inside _ confined.closed (opens.grows confined.grows) ?_ fun value among =>
      (known value among).grows confined.grows
    rintro _ ⟨⟩
    exact Store.home_child opens home
  constructor
  · rw [Eval.outcome_bind_ok ran]
    exact confined.trans entered.confined
  · rw [Eval.outcome_bind_ok ran]
    exact entered.owned

theorem contain {act : Eval α} (confines : Confines roots found act state) (callee : String) :
    Confines roots found (Eval.contain callee act) state := by
  obtain ⟨confined, owned⟩ := confines
  constructor
  · rwa [Eval.state_contain]
  · rw [Eval.outcome_contain]
    rcases ran : act.outcome state with ⟨(cause | failure) | result, after⟩
    · exact nofun
    · exact nofun
    · rw [ran] at owned
      exact owned

end Confines

structure Calls.Confined (roots : ScopeId → Prop) (calls : Calls) : Prop where
  evaluate : ∀ {scope : ScopeId} {expr : Expr} {state : State}, state.scopes.Closed roots →
    state.scopes.Open roots → state.scopes.Home roots scope → state.scopes.Owns roots (.code expr) →
      Confines roots ([·]) (calls.evaluate scope expr) state
  invoke : ∀ {operator : Value} {arguments : List Value} {state : State}, state.scopes.Closed roots →
    state.scopes.Open roots → (∀ value ∈ operator :: arguments, state.scopes.Owns roots value) →
      Confines roots ([·]) (calls.invoke operator arguments) state

theorem Near.home {place : Option ScopeId} {given : List Value} {roots : ScopeId → Prop} {store : Store}
    {scope : ScopeId} (near : Near Captures place given scope)
    (home : ∀ scope, place = some scope → store.Home roots scope)
    (known : ∀ value ∈ given, store.Owns roots value) : store.Home roots scope := by
  obtain here | ⟨value, drawn, captured⟩ := near
  · exact home scope here
  · exact Store.owns_of_drawn drawn known value .whole scope captured

section

variable {host : Host} {leeway : Leeway}

/-- One step: what acts in the scopes of some roots on values of the roots is confined to them, if the
calls it makes are. -/
theorem Handles.confines {deep may : Fault → Prop} {place : Option ScopeId} {given : List Value}
    {α : Type} {found : α → List Value} {run : Calls → Eval α}
    (handles : Handles host leeway Captures deep may place given found run) {roots : ScopeId → Prop}
    {calls : Calls} (calling : calls.Confined roots) {state : State}
    (closed : state.scopes.Closed roots) (opens : state.scopes.Open roots)
    (home : ∀ scope, place = some scope → state.scopes.Home roots scope)
    (known : ∀ value ∈ given, state.scopes.Owns roots value) :
    Confines roots found (run calls) state := by
  induction handles generalizing state with
  | own acts gives =>
    refine .of_own acts closed fun result ran value among => ?_
    exact Store.owns_of_drawn (gives state result ran value among) known
  | write writes gives =>
    refine .of_own (writes.own calls) closed fun result ran => List.forall_mem_singleton.mpr ?_
    exact Store.owns_of_drawn (gives calls state result ran) known
  | @lookup _ scope given name allowed =>
    refine .of_own (Eval.own_lookup scope allowed) closed fun result ran => ?_
    have resolved := Eval.resolved_of_lookup ran
    exact List.forall_mem_singleton.mpr (closed.owns_resolve? (home scope rfl) resolved)
  | @close may _ given around near params body drawn =>
    have acts : (Engine.closure params body around).Own may := Engine.own_closure params body around
    refine .of_own acts closed fun result ran => List.forall_mem_singleton.mpr ?_
    cases ran
    refine Store.owns_closure _ (fun scope same => (near scope same).home home known) fun expr among => ?_
    exact Store.owns_of_drawn (drawn expr among) known
  | @bind _ scope given name value target drawn =>
    have here := home scope rfl
    have owns := Store.owns_of_drawn drawn known
    cases target with
    | current => exact ⟨.bind name closed here owns, fun _ _ => nofun⟩
    | root => exact ⟨.bind name closed here.outermost owns, fun _ _ => nofun⟩
  | evaluate drawn => exact calling.evaluate closed opens (home _ rfl) (Store.owns_of_drawn drawn known)
  | invoke drawn =>
    exact calling.invoke closed opens fun value among => Store.owns_of_drawn (drawn value among) known
  | block near inside ih =>
    exact .child closed opens (fun scope same => (near scope same).home home known) known ih
  | andThen _ _ first rest =>
    -- The store has grown in between: what belonged to the roots and what they owned does so still.
    refine (first closed opens home known).andThen fun result after confined owns => ?_
    refine rest result confined.closed (opens.grows confined.grows)
      (fun scope here => (home scope here).grows confined.grows) ?_
    refine List.forall_mem_append.mpr ⟨owns, fun value among => ?_⟩
    exact (known value among).grows confined.grows
  | hand _ ih =>
    exact ih closed opens home (List.forall_mem_cons.mpr ⟨Store.owns_scope (home _ rfl), known⟩)
  | expand _ ih => exact ih closed opens home known
  | roam _ near drawn =>
    exact calling.evaluate closed opens (near.home nofun known) (Store.owns_of_drawn drawn known)
  | recover _ _ _ tries goesOn =>
    refine (tries closed opens home known).recover fun fault after confined => ?_
    exact goesOn fault confined.closed (opens.grows confined.grows)
      (fun scope here => (home scope here).grows confined.grows)
      fun value among => (known value among).grows confined.grows

end

end HostLisp
