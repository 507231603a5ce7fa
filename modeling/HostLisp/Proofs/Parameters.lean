import HostLisp.Proofs.Containment
import HostLisp.Proofs.Visibility

/-!
How functions take their arguments. A call binds the parameters one after the other in a new scope
inside the captured one, if there is one, and runs the body there: a parameter that occurs again takes
the later argument, and every other name is seen as it is seen from the captured scope at that moment.
-/

namespace HostLisp

namespace Store

def bindEach (store : Store) (id : ScopeId) : List String → List Value → Store
  | name :: names, value :: values => (store.bind id name value).bindEach id names values
  | _, _ => store

variable {store : Store} {id : ScopeId} {name : String}

theorem bindEach_preserves (holds : Store → Prop)
    (step : ∀ store name value, holds store → holds (store.bind id name value)) (names : List String)
    (values : List Value) (start : holds store) : holds (store.bindEach id names values) := by
  induction names generalizing store values with
  | nil => exact start
  | cons first names ih =>
    cases values with
    | nil => exact start
    | cons value values => exact ih values (step store first value start)

theorem size_bindEach (store : Store) (id : ScopeId) (names : List String) (values : List Value) :
    (store.bindEach id names values).size = store.size :=
  bindEach_preserves (·.size = store.size)
    (fun before name value same => (before.size_bind id name value none).trans same) names values rfl

theorem enclosing_bindEach (store : Store) (id other : ScopeId) (names : List String)
    (values : List Value) :
    ((store.bindEach id names values).scope other).enclosing = (store.scope other).enclosing :=
  bindEach_preserves (fun after => (after.scope other).enclosing = (store.scope other).enclosing)
    (fun before _ _ same => (before.enclosing_bind id other).trans same) names values rfl

theorem scope_bindEach_of_ne (store : Store) {id other : ScopeId} (apart : other ≠ id)
    (names : List String) (values : List Value) :
    (store.bindEach id names values).scope other = store.scope other := by
  refine bindEach_preserves (·.scope other = store.scope other) ?_ names values rfl
  intro before name value same
  rw [scope_bind, if_neg fun changed => apart changed.1.symm, same]

section

variable (there : id < store.size)
include there

theorem lt_size_bind {value : Value} : id < (store.bind id name value).size := by
  rwa [size_bind]

theorem get?_bindEach_of_notMem {names : List String} (free : name ∉ names) (values : List Value) :
    ((store.bindEach id names values).scope id).bindings.get? name =
      (store.scope id).bindings.get? name := by
  induction names generalizing store values with
  | nil => rfl
  | cons first names ih =>
    cases values with
    | nil => rfl
    | cons value values =>
      obtain ⟨apart, free⟩ := List.ne_and_not_mem_of_not_mem_cons free
      refine (ih (lt_size_bind there) free values).trans ?_
      rw [get?_bind there, if_neg fun changed => apart changed.2]

theorem get?_bindEach_last {names : List String} {values : List Value}
    (lengths : names.length = values.length) {i : Nat} (here : names[i]? = some name)
    (last : name ∉ names.drop (i + 1)) :
    ((store.bindEach id names values).scope id).bindings.get? name = values[i]? := by
  induction names generalizing store values i with
  | nil => cases here
  | cons first names ih =>
    cases values with
    | nil => cases lengths
    | cons value values =>
      cases i with
      | zero =>
        cases here
        refine (get?_bindEach_of_notMem (lt_size_bind there) last values).trans ?_
        rw [get?_bind there, if_pos ⟨rfl, rfl⟩]
        rfl
      | succ i => exact ih (lt_size_bind there) (Nat.succ.inj lengths) here last

theorem binds_bindEach_iff {names : List String} {values : List Value}
    (lengths : names.length = values.length) :
    (store.bindEach id names values).Binds id name ↔ name ∈ names ∨ store.Binds id name := by
  induction names generalizing store values with
  | nil => exact (or_iff_right List.not_mem_nil).symm
  | cons first names ih =>
    cases values with
    | nil => cases lengths
    | cons value values =>
      refine (ih (lt_size_bind there) (Nat.succ.inj lengths)).trans ?_
      rw [binds_bind_iff there, List.mem_cons, or_left_comm, or_assoc]
      simp only [true_and]

end

theorem resolve?_of_get? {value : Value}
    (held : (store.scope id).bindings.get? name = some value) :
    store.resolve? id name = some value := by
  unfold resolve?
  rw [chain, List.findSome?_cons, held]

theorem resolve?_beyond (beyond : ¬id < store.size) : store.resolve? id name = none := by
  unfold resolve?
  rw [chain, scope_beyond beyond, List.findSome?_singleton, scope_beyond beyond]
  rfl

theorem findSome?_get?_congr {other : Store} {ids : List ScopeId}
    (same : ∀ id ∈ ids, other.scope id = store.scope id) :
    ids.findSome? (fun id => (other.scope id).bindings.get? name) =
      ids.findSome? fun id => (store.scope id).bindings.get? name := by
  induction ids with
  | nil => rfl
  | cons id ids ih =>
    obtain ⟨first, others⟩ := List.forall_mem_cons.mp same
    rw [List.findSome?_cons, List.findSome?_cons, first, ih others]

end Store

def State.entered (state : State) (captured : Option ScopeId) (params : List String)
    (arguments : List Value) : State :=
  { state with
    scopes := (state.scopes.child captured).1.bindEach state.scopes.size params arguments
    serial := 0
    splices := 0 }

theorem Eval.outcome_bindParams (scope : ScopeId) (params : List String) (arguments : List Value)
    (state : State) :
    (Engine.bindParams scope params arguments).outcome state =
      (.ok (), { state with scopes := state.scopes.bindEach scope params arguments }) := by
  induction params generalizing arguments state with
  | nil => rfl
  | cons name params ih =>
    cases arguments with
    | nil => rfl
    | cons value arguments =>
      change (Eval.bind scope name value >>= fun _ =>
        Engine.bindParams scope params arguments).outcome state = _
      rw [Eval.outcome_bind_ok (Eval.outcome_bindName scope name value state), ih]
      rfl

/-- What a call makes of what its body ends in. -/
def called (callee : String) (ending : Except Fault Value × State) : Except Fault Value × State :=
  (ending.1.mapError (Fault.surface [some callee]), ending.2)

theorem Eval.outcome_contain_eq (callee : String) (act : Eval Value) (state : State) :
    (Eval.contain callee act).outcome state = called callee (act.outcome state) := by
  rw [Eval.outcome_contain]
  unfold called
  rcases act.outcome state with ⟨fault | value, after⟩
  · cases fault with
    | failure failure => rfl
    | crash cause => rfl
  · rfl

theorem called_eq_iff {callee : String} {ending : Except Fault Value × State} :
    called callee ending = ending ↔ ∀ cause, ending.1 ≠ .error (.crash cause) := by
  rcases ending with ⟨fault | value, after⟩
  · cases fault with
    | failure failure => exact iff_of_true rfl fun cause crashed => by cases crashed
    | crash cause =>
      refine iff_of_false (fun same => ?_) fun never => never cause rfl
      cases congrArg Prod.fst same
  · exact iff_of_true rfl fun cause crashed => by cases crashed

structure Entered (before : State) (captured : Option ScopeId) (params : List String)
    (arguments : List Value) (inner : ScopeId) (started : State) : Prop where
  fresh : inner = before.scopes.size
  size : started.scopes.size = before.scopes.size + 1
  inside : ∀ outer, captured = some outer → outer < before.scopes.size →
    started.scopes.parent? inner = some outer
  outermost : captured = none → started.scopes.parent? inner = none
  others : ∀ id < before.scopes.size, started.scopes.scope id = before.scopes.scope id
  binds : ∀ name, started.scopes.Binds inner name ↔ name ∈ params
  bound : ∀ i name, params[i]? = some name → name ∉ params.drop (i + 1) →
    started.scopes.resolve? inner name = arguments[i]?
  free : ∀ name ∉ params, started.scopes.resolve? inner name =
    captured.bind fun outer => before.scopes.resolve? outer name
  output : started.output = before.output
  log : started.log = before.log
  cancelled : started.cancelled = before.cancelled

section

variable {state : State} {captured : Option ScopeId} {params : List String} {arguments : List Value}
  {name : String}

theorem State.size_entered :
    (state.entered captured params arguments).scopes.size = state.scopes.size + 1 :=
  (Store.size_bindEach ..).trans (Store.size_child ..)

theorem State.lt_size_child (state : State) (captured : Option ScopeId) :
    state.scopes.size < (state.scopes.child captured).1.size := by
  rw [Store.size_child]
  exact Nat.lt_succ_self _

theorem State.scope_child_size :
    (state.scopes.child captured).1.scope state.scopes.size =
      { enclosing := state.scopes.inside captured } := by
  rw [Store.scope_child, if_pos rfl]

theorem State.enclosing_entered :
    ((state.entered captured params arguments).scopes.scope state.scopes.size).enclosing =
      state.scopes.inside captured :=
  (Store.enclosing_bindEach ..).trans (congrArg Scope.enclosing State.scope_child_size)

theorem State.scope_entered {id : ScopeId} (old : id < state.scopes.size) :
    (state.entered captured params arguments).scopes.scope id = state.scopes.scope id := by
  refine (Store.scope_bindEach_of_ne _ (Nat.ne_of_lt old) params arguments).trans ?_
  rw [Store.scope_child, if_neg (Nat.ne_of_lt old)]

theorem State.resolve?_entered_of_free
    (free : ((state.entered captured params arguments).scopes.scope
      state.scopes.size).bindings.get? name = none) :
    (state.entered captured params arguments).scopes.resolve? state.scopes.size name =
      captured.bind fun outer => state.scopes.resolve? outer name := by
  unfold Store.resolve?
  rw [Store.chain, List.findSome?_cons, free, State.enclosing_entered]
  change (state.scopes.inside captured).findSome? _ = _
  cases captured with
  | none => rfl
  | some outer =>
    rw [Store.inside]
    split
    · next there =>
      refine Store.findSome?_get?_congr fun id among => State.scope_entered ?_
      exact Store.lt_size_of_mem_chain there among
    · next beyond => exact (Store.resolve?_beyond beyond).symm

theorem State.entered_spec (lengths : params.length = arguments.length) :
    Entered state captured params arguments state.scopes.size
      (state.entered captured params arguments) where
  fresh := rfl
  size := State.size_entered
  inside outer same there := by
    unfold Store.parent?
    rw [State.enclosing_entered, same, Store.inside, if_pos there]
    rfl
  outermost alone := by
    unfold Store.parent?
    rw [State.enclosing_entered, alone]
    rfl
  others _ old := State.scope_entered old
  binds name := by
    refine (Store.binds_bindEach_iff (state.lt_size_child captured) lengths).trans (or_iff_left ?_)
    unfold Store.Binds
    rw [State.scope_child_size]
    exact Bool.false_ne_true
  bound i name here last := by
    have value := Store.get?_bindEach_last (state.lt_size_child captured) lengths here last
    obtain ⟨argument, held⟩ : ∃ argument, arguments[i]? = some argument := by
      refine ⟨_, List.getElem?_eq_getElem ?_⟩
      rw [← lengths]
      exact (List.getElem?_eq_some_iff.mp here).1
    rw [held] at value ⊢
    exact Store.resolve?_of_get? value
  free name absent := by
    refine State.resolve?_entered_of_free ?_
    refine (Store.get?_bindEach_of_notMem (state.lt_size_child captured) absent arguments).trans ?_
    rw [State.scope_child_size]
    rfl
  output := rfl
  log := rfl
  cancelled := rfl

end

theorem Engine.outcome_applyClosure (engine : Engine) (params : List String) (body : List Expr)
    (captured : Option ScopeId) (arguments : List Value) (state : State) :
    (engine.applyClosure params body captured arguments).outcome state =
      if params.length = arguments.length then
        (engine.runBody state.scopes.size body).outcome (state.entered captured params arguments)
      else (.error (.failure (.closureArity params.length arguments.length)), state) := by
  unfold applyClosure
  split
  · rw [Eval.outcome_bind_ok (Eval.outcome_child captured state),
      Eval.outcome_bind_ok (Eval.outcome_bindParams _ params arguments _)]
    rfl
  · rfl

theorem Engine.invoke_closure (engine : Engine) (params : List String) (body : List Expr)
    (captured : Option ScopeId) (stamp : Stamp) (arguments : List Value) (state : State) :
    (engine.deepen.invoke (.closure params body captured stamp) arguments).outcome state =
      called "lambda" ((engine.applyClosure params body captured arguments).outcome state) :=
  Eval.outcome_contain_eq "lambda" _ state

/-- A call with the wrong number of arguments fails without evaluating anything. Any other call runs
the body in a new scope, in which the parameters are bound. The scope is inside the captured one, from
which all other names are seen as they are seen from there then; if none was captured it is a root and no
other names are seen. Nothing else has changed when the body starts.
The function ends as its body does, and so does the call, except that it lets no crash out. -/
theorem parameters_bound (engine : Engine) (params : List String) (body : List Expr)
    (captured : Option ScopeId) (stamp : Stamp) (arguments : List Value) (state : State) :
    (params.length ≠ arguments.length →
      (engine.deepen.invoke (.closure params body captured stamp) arguments).outcome state =
          (.error (.failure (.closureArity params.length arguments.length)), state) ∧
        (Failure.closureArity params.length arguments.length).className = "ParensArityError") ∧
    (params.length = arguments.length →
      ∃ inner started ending, Entered state captured params arguments inner started ∧
        (engine.runBody inner body).outcome started = ending ∧
        (engine.applyClosure params body captured arguments).outcome state = ending ∧
        (engine.deepen.invoke (.closure params body captured stamp) arguments).outcome state =
          called "lambda" ending ∧
        (called "lambda" ending = ending ↔ ∀ cause, ending.1 ≠ .error (.crash cause))) := by
  have applied := engine.outcome_applyClosure params body captured arguments state
  have invoked := engine.invoke_closure params body captured stamp arguments state
  constructor
  · intro lengths
    rw [invoked, applied, if_neg lengths]
    exact ⟨rfl, rfl⟩
  · intro lengths
    rw [if_pos lengths] at applied
    exact ⟨_, _, _, State.entered_spec lengths, applied.symm, rfl, invoked, called_eq_iff⟩

theorem parameters_bound_repeated :
    let state := Session.initial [⟨"x", .nil, none⟩, ⟨"z", .text "late", none⟩]
    let repeated : Value := .closure ["x", "y", "x"] [.symbol "x"] (some 0) ⟨0, 0⟩
    let engine := Engine.ofDepth Host.catalogue 1
    (engine.deepen.invoke repeated [.nil]).outcome state =
        (.error (.failure (.closureArity 3 1)), state) ∧
      ∃ inner started, started.scopes.resolve? inner "x" = some (.text "c") ∧
        started.scopes.resolve? inner "y" = some (.text "b") ∧
        started.scopes.resolve? inner "z" = some (.text "late") ∧
        (engine.deepen.invoke repeated [.text "a", .text "b", .text "c"]).outcome state =
          (.ok (.text "c"), started) := by
  intro state repeated engine
  have bound (arguments : List Value) :=
    parameters_bound engine ["x", "y", "x"] [.symbol "x"] (some 0) ⟨0, 0⟩ arguments state
  obtain ⟨inner, started, _, entered, ran, -, invoked, -⟩ :=
    (bound [.text "a", .text "b", .text "c"]).2 rfl
  have last := entered.bound 2 "x" rfl (by decide)
  have late : state.scopes.resolve? 0 "z" = some (.text "late") := rfl
  have found : (engine.runBody inner [.symbol "x"]).outcome started = (.ok (.text "c"), started) := by
    change (Eval.lookup inner "x" >>= pure).outcome started = _
    rw [Eval.outcome_bind, Eval.outcome_lookup, last]
    rfl
  rw [← ran, found] at invoked
  exact ⟨((bound [.nil]).1 (by decide)).1, inner, started, last,
    entered.bound 1 "y" rfl (by decide), (entered.free "z" (by decide)).trans late, invoked⟩

end HostLisp
