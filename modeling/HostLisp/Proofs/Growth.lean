import HostLisp.Proofs.Frame

/-!
Stores only grow. Evaluation does two things to a store, whatever it runs and however it ends: it
binds names, without documentation, and it makes scopes. So scopes stay where they are, names stay
bound, documentation stays as it is, and what can be looked up once can be looked up ever after.
-/

namespace HostLisp

theorem Table.isSome_get?_iff {α : Type} (table : Table α) (name : String) :
    (table.get? name).isSome = true ↔ name ∈ table.names := by
  unfold Table.get? Table.names
  rw [List.lookup_isSome_iff, List.mem_map]
  constructor
  · rintro ⟨entry, inside, same⟩
    exact ⟨entry, inside, (beq_iff_eq.mp same).symm⟩
  · rintro ⟨entry, inside, same⟩
    exact ⟨entry, inside, beq_iff_eq.mpr same.symm⟩

theorem Table.names_prefix_insert {α : Type} (table : Table α) (name : String) (value : α) :
    table.names <+: (table.insert name value).names := by
  rw [Table.names_insert]
  split
  · exact List.prefix_rfl
  · exact List.prefix_append table.names [name]

namespace Store

/-- What evaluation does to a store, step after step. -/
inductive Evolves (before : Store) : Store → Prop where
  | now : Evolves before before
  | bind {store : Store} (scope : ScopeId) (name : String) (value : Value)
      (earlier : Evolves before store) : Evolves before (store.bind scope name value)
  | child {store : Store} (around : Option ScopeId) (earlier : Evolves before store) :
      Evolves before (store.child around).1

theorem Evolves.trans {before middle after : Store} (first : Evolves before middle)
    (second : Evolves middle after) : Evolves before after := by
  induction second with
  | now => exact first
  | bind scope name value _ ih => exact .bind scope name value ih
  | child around _ ih => exact .child around ih

/-- Scopes stay where they are, with all their names and with their documentation; new scopes have no
documentation. -/
structure Grows (before after : Store) : Prop where
  size : before.size ≤ after.size
  enclosing : ∀ id < before.size, (after.scope id).enclosing = (before.scope id).enclosing
  names : ∀ id < before.size,
    (before.scope id).bindings.names <+: (after.scope id).bindings.names
  docs : ∀ id < before.size, (after.scope id).docs = (before.scope id).docs
  undocumented : ∀ id, before.size ≤ id → id < after.size → (after.scope id).docs = .empty

namespace Grows

variable {before middle after : Store}

theorem refl (store : Store) : Grows store store :=
  ⟨Nat.le_refl _, fun _ _ => rfl, fun _ _ => List.prefix_rfl, fun _ _ => rfl,
    fun _ new old => absurd old (Nat.not_lt.mpr new)⟩

theorem trans (first : Grows before middle) (second : Grows middle after) : Grows before after := by
  have kept : ∀ id < before.size, id < middle.size := fun id old => Nat.lt_of_lt_of_le old first.size
  refine ⟨Nat.le_trans first.size second.size, ?_, ?_, ?_, ?_⟩
  · intro id old
    rw [second.enclosing id (kept id old), first.enclosing id old]
  · intro id old
    exact (first.names id old).trans (second.names id (kept id old))
  · intro id old
    rw [second.docs id (kept id old), first.docs id old]
  · intro id new made
    by_cases earlier : id < middle.size
    · rw [second.docs id earlier]
      exact first.undocumented id new earlier
    · exact second.undocumented id (Nat.not_lt.mp earlier) made

theorem bind (store : Store) (scope : ScopeId) (name : String) (value : Value) :
    Grows store (store.bind scope name value) := by
  have size : (store.bind scope name value).size = store.size := size_bind ..
  refine ⟨Nat.le_of_eq size.symm, ?_, ?_, ?_, ?_⟩
  · intro id _
    rw [scope_bind]
    split
    · rfl
    · rfl
  · intro id _
    rw [scope_bind]
    split
    · exact Table.names_prefix_insert _ name value
    · exact List.prefix_rfl
  · intro id _
    rw [scope_bind]
    split
    · rfl
    · rfl
  · intro id new made
    omega

theorem child (store : Store) (around : Option ScopeId) : Grows store (store.child around).1 := by
  have size : (store.child around).1.size = store.size + 1 := size_child ..
  have same : ∀ id < store.size, (store.child around).1.scope id = store.scope id := by
    intro id old
    rw [scope_child, if_neg (Nat.ne_of_lt old)]
  refine ⟨by omega, ?_, ?_, ?_, ?_⟩
  · intro id old
    rw [same id old]
  · intro id old
    have kept : (store.scope id).bindings.names = ((store.child around).1.scope id).bindings.names := by
      rw [same id old]
    exact kept ▸ List.prefix_rfl
  · intro id old
    rw [same id old]
  · intro id new made
    have last : id = store.size := by omega
    rw [scope_child, if_pos last]

end Grows

theorem Evolves.grows {before after : Store} (evolves : Evolves before after) : Grows before after := by
  induction evolves with
  | now => exact .refl before
  | bind scope name value _ ih => exact ih.trans (.bind _ scope name value)
  | child around _ ih => exact ih.trans (.child _ around)

theorem lt_of_mem_enclosing (store : Store) (outer : List ScopeId) :
    ∀ id, (store.scope id).enclosing = outer → ∀ other ∈ outer, other < id := by
  induction outer with
  | nil => exact fun _ _ _ inside => nomatch inside
  | cons next outer ih =>
    intro id around other inside
    obtain ⟨older, rest⟩ := store.nested id next outer around
    rcases List.mem_cons.mp inside with rfl | inside
    · exact older
    · exact Nat.lt_trans (ih next rest other inside) older

theorem lt_size_of_mem_chain {store : Store} {id other : ScopeId} (old : id < store.size)
    (inside : other ∈ store.chain id) : other < store.size := by
  rcases List.mem_cons.mp inside with rfl | inside
  · exact old
  · exact Nat.lt_trans (store.lt_of_mem_enclosing _ id rfl other inside) old

theorem isSome_resolve?_iff (store : Store) (id : ScopeId) (name : String) :
    (store.resolve? id name).isSome = true ↔
      ∃ other ∈ store.chain id, name ∈ (store.scope other).bindings.names := by
  unfold resolve?
  rw [List.findSome?_isSome_iff]
  simp only [Table.isSome_get?_iff]

namespace Grows

variable {before after : Store}

theorem chain (grows : Grows before after) {id : ScopeId} (old : id < before.size) :
    after.chain id = before.chain id :=
  congrArg (id :: ·) (grows.enclosing id old)

theorem resolves (grows : Grows before after) {id : ScopeId} (old : id < before.size) {name : String}
    (resolves : (before.resolve? id name).isSome = true) :
    (after.resolve? id name).isSome = true := by
  rw [isSome_resolve?_iff] at resolves ⊢
  rw [grows.chain old]
  obtain ⟨other, inside, bound⟩ := resolves
  exact ⟨other, inside, (grows.names other (lt_size_of_mem_chain old inside)).subset bound⟩

theorem doc (grows : Grows before after) {id : ScopeId} (old : id < before.size) (name : String) :
    after.doc id name = before.doc id name := by
  have tables : (after.chain id).map (fun other => (after.scope other).docs) =
      (before.chain id).map fun other => (before.scope other).docs := by
    rw [grows.chain old]
    apply List.map_congr_left
    intro other inside
    exact grows.docs other (lt_size_of_mem_chain old inside)
  have answers := congrArg (fun tables => (tables.findSome? (Table.get? · name)).getD "") tables
  simp only [List.findSome?_map] at answers
  exact answers

end Grows

end Store

open Store

structure Calls.Evolving (calls : Calls) : Prop where
  evaluate : ∀ scope expr state,
    Evolves state.scopes ((calls.evaluate scope expr).outcome state).2.scopes
  invoke : ∀ operator arguments state,
    Evolves state.scopes ((calls.invoke operator arguments).outcome state).2.scopes

theorem Store.Evolves.andThen {α β : Type} {act : Eval α} {next : α → Eval β} {state : State}
    (first : Evolves state.scopes (act.outcome state).2.scopes)
    (rest : ∀ value after, Evolves after.scopes ((next value).outcome after).2.scopes) :
    Evolves state.scopes ((act >>= next).outcome state).2.scopes := by
  rcases ran : act.outcome state with ⟨result, after⟩
  rw [ran] at first
  cases result with
  | error fault => rwa [Eval.outcome_bind_error ran]
  | ok value =>
    rw [Eval.outcome_bind_ok ran]
    exact first.trans (rest value after)

theorem Store.Evolves.recover {α : Type} {act : Eval α} {handler : Fault → Eval α} {state : State}
    (tries : Evolves state.scopes (act.outcome state).2.scopes)
    (goesOn : ∀ fault after, Evolves after.scopes ((handler fault).outcome after).2.scopes) :
    Evolves state.scopes ((tryCatch act handler).outcome state).2.scopes := by
  rw [Eval.outcome_tryCatch]
  rcases ran : act.outcome state with ⟨result, after⟩
  rw [ran] at tries
  cases result with
  | error fault => exact tries.trans (goesOn fault after)
  | ok value => exact tries

section

variable {host : Host} {leeway : Leeway}

theorem Code.evolves {may : Fault → Prop} {α : Type} {place : Option ScopeId} {run : Calls → Eval α}
    (code : Code host leeway may place run) {calls : Calls} (evolving : calls.Evolving)
    (state : State) : Evolves state.scopes ((run calls).outcome state).2.scopes := by
  induction code generalizing state with
  | own acts =>
    rw [acts.scopes]
    exact .now
  | write writes =>
    rw [writes.scopes calls state]
    exact .now
  | bindHere scope name value => exact .bind scope name value .now
  | bindRoot scope name value => exact .bind (state.scopes.root scope) name value .now
  | evaluate scope expr | roam _ scope expr => exact evolving.evaluate scope expr state
  | invoke operator arguments => exact evolving.invoke operator arguments state
  | block around _ ih =>
    have made : Evolves state.scopes ((Eval.child around).outcome state).2.scopes := .child around .now
    exact made.andThen ih
  | andThen _ _ first rest => exact (first state).andThen rest
  | expand _ ih => exact ih state
  | recover _ _ _ tries goesOn => exact (tries state).recover goesOn

variable (abides : host.Abides leeway)
include abides

theorem Engine.evolving_ofDepth (depth : Nat) : (Engine.ofDepth host depth).toCalls.Evolving := by
  induction depth with
  | zero => exact ⟨fun _ _ _ => .now, fun _ _ _ => .now⟩
  | succ depth ih =>
    constructor
    · intro scope expr state
      rw [Engine.evaluate_ofDepth]
      have step : Code host leeway (fun _ => True) (some scope) fun calls =>
          Engine.evaluateStep ⟨calls, host⟩ scope expr := .evaluateStep abides (fun _ => trivial) expr
      exact step.evolves ih state
    · intro operator arguments state
      have applied := (Code.apply abides operator arguments).evolves ih state
      cases invokable : operator.isInvokable with
      | true => rwa [Engine.invoke_invokable host depth invokable, Eval.state_contain]
      | false => rwa [Engine.invoke_other host depth invokable]

end

namespace Session

/-- The states that submissions lead to, one after the other. -/
inductive Reaches (host : Host) (before : State) : State → Prop where
  | start : Reaches host before before
  | submit {state : State} (read : Reader) (root : ScopeId) (usual source : String)
      (name : Option String) (depth : Nat) (earlier : Reaches host before state) :
      Reaches host before
        ((execute read root usual source name (Engine.ofDepth host depth)).outcome state).2

theorem evolves_execute {host : Host} {leeway : Leeway} (abides : host.Abides leeway)
    (read : Reader) (root : ScopeId)
    (usual source : String) (name : Option String) (depth : Nat) (state : State) :
    Evolves state.scopes
      ((execute read root usual source name (Engine.ofDepth host depth)).outcome state).2.scopes := by
  refine .andThen ?_ fun expr after => ?_
  · rw [Eval.outcome_ofExcept]
    exact .now
  · have evolves := (Engine.evolving_ofDepth abides depth).evaluate root expr after
    rw [outcome_guardDepth]
    split
    · next ran => rwa [ran] at evolves
    · exact evolves

theorem Reaches.evolves {host : Host} {leeway : Leeway} (abides : host.Abides leeway)
    {before after : State} (reaches : Reaches host before after) :
    Evolves before.scopes after.scopes := by
  induction reaches with
  | start => exact .now
  | submit read root usual source name depth _ ih =>
    exact ih.trans (evolves_execute abides read root usual source name depth _)

theorem run_cons (read : Reader) (root : ScopeId) (usual source : String) (name : Option String)
    (sources : List String) (engine : Engine) (state : State) :
    (run read root usual name (source :: sources) engine).run state =
      if state.cancelled then ([], state)
      else if Text.isBlankText source then (run read root usual name sources engine).run state
      else
        match (execute read root usual source name engine).outcome state with
        | (.error (.crash cause), after) => ([.error (.crash cause)], after)
        | (outcome, after) =>
          (outcome :: ((run read root usual name sources engine).run after).1,
            ((run read root usual name sources engine).run after).2) := by
  rw [run, StateT.run_bind]
  change StateT.run (if state.cancelled then _ else _) state = _
  split
  · rfl
  split
  · rfl
  rw [StateT.run_bind]
  change (do
    let outcome ← (pure ((execute read root usual source name engine).outcome state) : Id _)
    _) = _
  rcases (execute read root usual source name engine).outcome state with ⟨(_ | _) | _, _⟩ <;> rfl

theorem reaches_run {host : Host} (read : Reader) (root : ScopeId) (usual : String)
    (name : Option String) (depth : Nat) {before : State} (sources : List String) :
    ∀ {state : State}, Reaches host before state →
      Reaches host before ((run read root usual name sources (Engine.ofDepth host depth)).run state).2 := by
  induction sources with
  | nil => exact fun reached => reached
  | cons source sources ih =>
    intro state reached
    have submitted := reached.submit read root usual source name depth
    rw [run_cons]
    split
    · exact reached
    split
    · exact ih reached
    split
    · next ran => rwa [ran] at submitted
    · next ran =>
      rw [ran] at submitted
      exact ih submitted

end Session

/-- Evaluation only makes a store grow, whether it ends with a value or not. So what resolves from a
scope resolves from it after any submissions, and documentation that can be seen from it stays the
same. A run of a session is such a sequence of submissions. -/
theorem scopes_only_grow {host : Host} {leeway : Leeway} (abides : host.Abides leeway) :
    (∀ (depth : Nat) (state : State) (scope : ScopeId) (expr : Expr),
      Grows state.scopes (((Engine.ofDepth host depth).evaluate scope expr).outcome state).2.scopes) ∧
    (∀ before after : State, Session.Reaches host before after →
      ∀ id < before.scopes.size, ∀ name,
        ((before.scopes.resolve? id name).isSome = true →
          (after.scopes.resolve? id name).isSome = true) ∧
        after.scopes.doc id name = before.scopes.doc id name) ∧
    ∀ (read : Session.Reader) (root : ScopeId) (usual : String) (name : Option String)
      (sources : List String) (depth : Nat) (state : State),
      Session.Reaches host state
        ((Session.run read root usual name sources (Engine.ofDepth host depth)).run state).2 := by
  refine ⟨?_, ?_, ?_⟩
  · intro depth state scope expr
    exact ((Engine.evolving_ofDepth abides depth).evaluate scope expr state).grows
  · intro before after reaches id old name
    have grows := (reaches.evolves abides).grows
    exact ⟨grows.resolves old, grows.doc old name⟩
  · intro read root usual name sources depth state
    exact Session.reaches_run read root usual name depth sources .start

theorem scopes_only_grow_redefined :
    let before : State := { scopes := Store.empty.fresh.1.bind 0 "x" .nil (some "Not set yet") }
    let define : Expr := .list [.value (.form .define) ⟨0, 0⟩, .symbol "x", .vector [], .list []]
    let after := ((Session.execute (fun _ _ => .ok define) 0 "usual" "" none).outcome before).2
    Grows before.scopes ((Engine.standard.evaluate 0 define).outcome before).2.scopes ∧
      (after.scopes.resolve? 0 "x").isSome = true ∧ after.scopes.doc 0 "x" = "Not set yet" := by
  intro before define after
  have orderly : Host.catalogue.Orderly := Native.abides_catalogue
  obtain ⟨grows, resolves, _⟩ := scopes_only_grow orderly
  have reaches : Session.Reaches Host.catalogue before after :=
    .submit (fun _ _ => .ok define) 0 "usual" "" none Engine.depthLimit .start
  obtain ⟨bound, documented⟩ := resolves before after reaches 0 (by decide) "x"
  have doc : before.scopes.doc 0 "x" = "Not set yet" := rfl
  exact ⟨grows Engine.depthLimit before 0 define, bound rfl, documented.trans doc⟩

end HostLisp
