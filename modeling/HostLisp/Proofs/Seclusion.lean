import HostLisp.Proofs.Holdings
import HostLisp.Proofs.Within

/-!
A scope that no value stands for. Code acts in a scope where it does not run only if it is handed the
scope as a value. So what runs elsewhere, on values none of which is the scope, leaves it as it is, and
none of the values that come of this is the scope.
-/

namespace HostLisp

open Value

namespace Store

theorem enclosing_getLastD (store : Store) (outer : List ScopeId) :
    ∀ id, (store.scope id).enclosing = outer → (store.scope (outer.getLastD id)).enclosing = [] := by
  induction outer with
  | nil => exact fun _ around => around
  | cons next outer ih =>
    intro id around
    rw [List.getLastD_cons]
    exact ih next (store.nested id next outer around).2

theorem enclosing_root (store : Store) (id : ScopeId) :
    (store.scope (store.root id)).enclosing = [] :=
  store.enclosing_getLastD _ id rfl

end Store

/-- No part of the value is the scope itself. Closures in it may have captured the scope. -/
def Value.Conceals (hidden : ScopeId) (value : Value) : Prop := ¬Inside (.scope hidden) value

namespace Value

variable {hidden : ScopeId}

theorem rare_scope (hidden : ScopeId) : Rare (· = .scope hidden) := by
  rintro _ rfl
  rfl

theorem conceals_of_drawn {given : List Value} {value : Value}
    (drawn : Drawn (· = .scope hidden) given value) (each : ∀ source ∈ given, source.Conceals hidden) :
    value.Conceals hidden := by
  intro inside
  obtain ⟨source, among, within⟩ := drawn (.scope hidden) inside rfl
  exact each source among within

theorem conceals_scope {other : ScopeId} (apart : other ≠ hidden) : (scope other).Conceals hidden := by
  intro inside
  cases inside with
  | whole => exact apart rfl
  | deeper among _ => cases among

theorem conceals_closure (params : List String) {body : List Expr} (around : Option ScopeId)
    (stamp : Stamp) (each : ∀ expr ∈ body, (code expr).Conceals hidden) :
    (closure params body around stamp).Conceals hidden := by
  intro inside
  cases inside with
  | deeper among inside =>
    obtain ⟨expr, present, rfl⟩ := List.mem_map.mp among
    exact each expr present inside

end Value

/-- The scope has the given contents, and no value that is bound anywhere is the scope. -/
structure Store.Secluded (hidden : ScopeId) (contents : Scope) (store : Store) : Prop where
  there : hidden < store.size
  same : store.scope hidden = contents
  holds : store.Holds (Conceals hidden)

namespace Store.Secluded

variable {hidden : ScopeId} {contents : Scope} {store : Store}
  (secluded : store.Secluded hidden contents)
include secluded

theorem bind {scope : ScopeId} (apart : scope ≠ hidden) (name : String) {value : Value}
    (conceals : value.Conceals hidden) : (store.bind scope name value).Secluded hidden contents := by
  refine ⟨?_, ?_, secluded.holds.bind scope name conceals none⟩
  · rw [size_bind]
    exact secluded.there
  · rw [scope_bind, if_neg fun both => apart both.1]
    exact secluded.same

theorem child (around : Option ScopeId) : (store.child around).1.Secluded hidden contents := by
  refine ⟨?_, ?_, secluded.holds.child around⟩
  · rw [size_child]
    exact Nat.lt_succ_of_lt secluded.there
  · rw [scope_child, if_neg (Nat.ne_of_lt secluded.there)]
    exact secluded.same

end Store.Secluded

/-- A computation leaves the scope secluded, however it ends, and finds no value that is the scope. -/
structure Secludes {α : Type} (hidden : ScopeId) (contents : Scope) (found : α → List Value)
    (act : Eval α) (state : State) : Prop where
  store : (act.outcome state).2.scopes.Secluded hidden contents
  values : ∀ result, (act.outcome state).1 = .ok result → ∀ value ∈ found result, value.Conceals hidden

namespace Secludes

variable {α β : Type} {hidden : ScopeId} {contents : Scope} {found : α → List Value} {state : State}

theorem of_own {may : Fault → Prop} {act : Eval α} (acts : act.Own may)
    (secluded : state.scopes.Secluded hidden contents)
    (values : ∀ result, (act.outcome state).1 = .ok result → ∀ value ∈ found result,
      value.Conceals hidden) : Secludes hidden contents found act state := by
  refine ⟨?_, values⟩
  rw [acts.scopes state]
  exact secluded

theorem andThen {act : Eval α} {next : α → Eval β} {further : β → List Value}
    (first : Secludes hidden contents found act state)
    (rest : ∀ result after, after.scopes.Secluded hidden contents →
      (∀ value ∈ found result, value.Conceals hidden) →
        Secludes hidden contents further (next result) after) :
    Secludes hidden contents further (act >>= next) state := by
  obtain ⟨store, values⟩ := first
  rcases ran : act.outcome state with ⟨result, after⟩
  rw [ran] at store values
  cases result with
  | error fault =>
    constructor
    · rwa [Eval.outcome_bind_error ran]
    · rw [Eval.outcome_bind_error ran]
      exact nofun
  | ok result =>
    obtain ⟨later, conceals⟩ := rest result after store (values result rfl)
    constructor
    · rwa [Eval.outcome_bind_ok ran]
    · rwa [Eval.outcome_bind_ok ran]

theorem recover {act : Eval α} {handler : Fault → Eval α}
    (tries : Secludes hidden contents found act state)
    (goesOn : ∀ fault after, after.scopes.Secluded hidden contents →
      Secludes hidden contents found (handler fault) after) :
    Secludes hidden contents found (tryCatch act handler) state := by
  obtain ⟨store, values⟩ := tries
  have ended := Eval.outcome_tryCatch act handler state
  rcases ran : act.outcome state with ⟨result, after⟩
  rw [ran] at store values ended
  cases result with
  | error fault =>
    obtain ⟨later, conceals⟩ := goesOn fault after store
    constructor
    · rwa [ended]
    · rwa [ended]
  | ok result =>
    constructor
    · rwa [ended]
    · rwa [ended]

theorem contain {act : Eval α} (secludes : Secludes hidden contents found act state)
    (callee : String) : Secludes hidden contents found (Eval.contain callee act) state := by
  obtain ⟨store, values⟩ := secludes
  constructor
  · rwa [Eval.state_contain]
  · rw [Eval.outcome_contain]
    rcases ran : act.outcome state with ⟨(cause | failure) | result, after⟩
    · exact nofun
    · exact nofun
    · rw [ran] at values
      exact values

end Secludes

structure Calls.Secluding (hidden : ScopeId) (contents : Scope) (calls : Calls) : Prop where
  evaluate : ∀ {scope : ScopeId} {expr : Expr} {state : State}, scope ≠ hidden →
    state.scopes.Secluded hidden contents → (Value.code expr).Conceals hidden →
      Secludes hidden contents ([·]) (calls.evaluate scope expr) state
  invoke : ∀ {operator : Value} {arguments : List Value} {state : State},
    state.scopes.Secluded hidden contents →
    (∀ value ∈ operator :: arguments, value.Conceals hidden) →
      Secludes hidden contents ([·]) (calls.invoke operator arguments) state

section

variable {host : Host} {leeway : Leeway} (stays : ¬leeway.roams) {hidden : ScopeId} {contents : Scope}
  (inner : contents.enclosing ≠ [])
include stays inner

/-- One step: what acts elsewhere on values none of which is the scope leaves the scope secluded, if the
calls it makes do. -/
theorem Handles.secludes {deep may : Fault → Prop} {place : Option ScopeId} {given : List Value}
    {α : Type} {found : α → List Value} {run : Calls → Eval α}
    (handles : Handles host leeway (· = .scope hidden) deep may place given found run) {calls : Calls}
    (calling : calls.Secluding hidden contents) {state : State} (elsewhere : place ≠ some hidden)
    (secluded : state.scopes.Secluded hidden contents)
    (known : ∀ value ∈ given, value.Conceals hidden) :
    Secludes hidden contents found (run calls) state := by
  induction handles generalizing state with
  | own acts gives =>
    refine .of_own acts secluded fun result ran value among => ?_
    exact conceals_of_drawn (gives state result ran value among) known
  | write writes gives =>
    refine .of_own (writes.own calls) secluded fun result ran => List.forall_mem_singleton.mpr ?_
    exact conceals_of_drawn (gives calls state result ran) known
  | @lookup _ scope given name allowed =>
    refine .of_own (Eval.own_lookup scope allowed) secluded fun result ran => ?_
    exact List.forall_mem_singleton.mpr (secluded.holds.resolve? (Eval.resolved_of_lookup ran))
  | @close may _ given around near params body drawn =>
    have acts : (Engine.closure params body around).Own may := Engine.own_closure params body around
    refine .of_own acts secluded fun result ran => List.forall_mem_singleton.mpr ?_
    cases ran
    exact conceals_closure params around _ fun expr among => conceals_of_drawn (drawn expr among) known
  | @bind _ scope given name value target drawn =>
    have conceals := conceals_of_drawn drawn known
    have apart : scope ≠ hidden := fun same => elsewhere (congrArg some same)
    cases target with
    | current => exact ⟨secluded.bind apart name conceals, fun _ _ => nofun⟩
    | root =>
      -- The root has no scope around it, so it is not the hidden one.
      have outermost : state.scopes.root scope ≠ hidden := by
        rintro same
        refine inner ?_
        rw [← secluded.same, ← same]
        exact state.scopes.enclosing_root scope
      exact ⟨secluded.bind outermost name conceals, fun _ _ => nofun⟩
  | evaluate drawn =>
    exact calling.evaluate (fun same => elsewhere (congrArg some same)) secluded
      (conceals_of_drawn drawn known)
  | invoke drawn =>
    exact calling.invoke secluded fun value among => conceals_of_drawn (drawn value among) known
  | @block _ _ _ around _ _ _ _ inside ih =>
    have apart : some state.scopes.size ≠ some hidden := fun same =>
      Nat.ne_of_gt secluded.there (Option.some.inj same)
    have ran := Eval.outcome_child around state
    have entered := @ih state.scopes.size ((Eval.child around).outcome state).2 apart
      (secluded.child around) known
    constructor
    · rw [Eval.outcome_bind_ok ran]
      exact entered.store
    · rw [Eval.outcome_bind_ok ran]
      exact entered.values
  | andThen _ _ first rest =>
    refine (first elsewhere secluded known).andThen fun result after later conceals => ?_
    exact rest result elsewhere later fun value among =>
      (List.mem_append.mp among).elim (conceals value) (known value)
  | @hand _ scope _ _ _ _ _ ih =>
    have apart : scope ≠ hidden := fun same => elsewhere (congrArg some same)
    exact ih elsewhere secluded (List.forall_mem_cons.mpr ⟨conceals_scope apart, known⟩)
  | expand _ ih => exact ih elsewhere secluded known
  | roam allowed => exact absurd allowed stays
  | recover _ _ _ tries goesOn =>
    exact (tries elsewhere secluded known).recover fun fault after later =>
      goesOn fault elsewhere later known

/-- Whole runs: engines of every depth leave the scope secluded. -/
theorem Engine.secluding_ofDepth (faithful : host.Faithful leeway (· = .scope hidden) fun _ => True)
    (depth : Nat) : (Engine.ofDepth host depth).toCalls.Secluding hidden contents := by
  have rare := rare_scope hidden
  have usual : ∀ fault : Fault, fault.isRead = false → True := fun _ _ => trivial
  induction depth with
  | zero => exact ⟨fun _ secluded _ => ⟨secluded, nofun⟩, fun secluded _ => ⟨secluded, nofun⟩⟩
  | succ depth ih =>
    constructor
    · intro scope expr state apart secluded conceals
      rw [Engine.evaluate_ofDepth]
      have step : Handles host leeway (· = .scope hidden) (fun _ => True) (fun _ => True) (some scope)
          [.code expr] ([·]) fun calls => Engine.evaluateStep ⟨calls, host⟩ scope expr :=
        .evaluateStep rare faithful usual (fun _ _ => trivial) (fun _ _ _ _ => trivial)
          (.of_mem List.mem_cons_self)
      exact step.secludes stays inner ih (fun same => apart (Option.some.inj same)) secluded
        (List.forall_mem_singleton.mpr conceals)
    · intro operator arguments state secluded conceals
      have step : Handles host leeway (· = .scope hidden) (fun _ => True) (fun _ => True)
          (operator.handed? arguments) (operator :: arguments) ([·]) fun calls =>
            Engine.apply ⟨calls, host⟩ operator arguments :=
        .apply_of_common rare faithful usual (fun _ _ => nofun) fun _ among => .of_mem among
      have apart : operator.handed? arguments ≠ some hidden := fun handed =>
        conceals (.scope hidden) (List.mem_cons_of_mem _ (mem_of_handed? handed)) .whole
      have applied := step.secludes stays inner ih apart secluded conceals
      cases invokable : operator.isInvokable with
      | true =>
        rw [Engine.invoke_invokable host depth invokable]
        exact applied.contain operator.callee
      | false => rwa [Engine.invoke_other host depth invokable]

end

end HostLisp
