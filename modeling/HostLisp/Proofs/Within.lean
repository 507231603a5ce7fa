import HostLisp.Proofs.Applications

/-!
Runs inside runs. While code runs, evaluation comes to other code: to the parts of a sequence, to
the code of inner scopes, and a level deeper to the steps that evaluate expressions and apply values.
The calls on the way form a trail. Invoked values stand in it with their names; an operator that calls
its function leaves no name.
-/

namespace HostLisp

namespace Engine

theorem host_ofDepth (host : Host) (depth : Nat) : (ofDepth host depth).host = host := by
  induction depth with
  | zero => rfl
  | succ depth ih => exact ih

@[simp] theorem room_ofDepth (host : Host) (depth : Nat) : (ofDepth host depth).room = depth := by
  induction depth with
  | zero => rfl
  | succ depth ih => exact congrArg (· + 1) ih

theorem mk_ofDepth (host : Host) (depth : Nat) :
    ⟨(ofDepth host depth).toCalls, host⟩ = ofDepth host depth := by
  have same := host_ofDepth host depth
  generalize ofDepth host depth = engine at same
  cases engine
  exact congrArg (Engine.mk _) same.symm

theorem evaluate_ofDepth (host : Host) (depth : Nat) (scope : ScopeId) (expr : Expr) :
    (ofDepth host (depth + 1)).evaluate scope expr =
      evaluateStep ⟨(ofDepth host depth).toCalls, host⟩ scope expr := by
  rw [mk_ofDepth]
  rfl

theorem evaluate_symbol (host : Host) (depth : Nat) (scope : ScopeId) (name : String) (state : State) :
    ((ofDepth host (depth + 1)).evaluate scope (.symbol name)).outcome state =
      match state.scopes.resolve? scope name with
      | some value => (.ok value, state)
      | none => (.error (.failure (.unbound name)), state) :=
  Eval.outcome_lookup scope name state

theorem evaluate_form {host : Host} {depth : Nat} {scope : ScopeId} {head : Expr} {arguments : List Expr}
    {form : Form} {action : Action} {before readied : State}
    (reaches : ((ofDepth host depth).evaluate scope head).outcome before = (.ok (.form form), readied))
    (reads : Action.read form (operatorName head) arguments = .ok action) :
    ((ofDepth host (depth + 1)).evaluate scope (.list (head :: arguments))).outcome before =
      ((ofDepth host depth).perform scope action).outcome readied := by
  change ((ofDepth host depth).callStep scope head arguments).outcome before = _
  unfold callStep
  rw [Eval.outcome_bind_ok reaches]
  simp only [callForm, reads]

theorem evaluate_formName {host : Host} {depth : Nat} {scope : ScopeId} {name : String}
    {arguments : List Expr} {form : Form} {action : Action} {state : State}
    (bound : state.scopes.resolve? scope name = some (.form form))
    (reads : Action.read form name arguments = .ok action) :
    ((ofDepth host (depth + 2)).evaluate scope (.list (.symbol name :: arguments))).outcome state =
      ((ofDepth host (depth + 1)).perform scope action).outcome state := by
  have reaches : ((ofDepth host (depth + 1)).evaluate scope (.symbol name)).outcome state =
      (.ok (.form form), state) := by
    rw [evaluate_symbol, bound]
  exact evaluate_form reaches reads

theorem invoke_ofDepth (host : Host) (depth : Nat) (operator : Value) (arguments : List Value) :
    (ofDepth host (depth + 1)).invoke operator arguments =
      invokeStep ⟨(ofDepth host depth).toCalls, host⟩ operator arguments := by
  rw [mk_ofDepth]
  rfl

theorem invoke_invokable (host : Host) (depth : Nat) {operator : Value}
    (invokable : operator.isInvokable = true) (arguments : List Value) :
    (ofDepth host (depth + 1)).invoke operator arguments =
      Eval.contain operator.callee (apply ⟨(ofDepth host depth).toCalls, host⟩ operator arguments) :=
  (invoke_ofDepth host depth operator arguments).trans (if_pos invokable)

theorem invoke_other (host : Host) (depth : Nat) {operator : Value}
    (other : operator.isInvokable = false) (arguments : List Value) :
    (ofDepth host (depth + 1)).invoke operator arguments =
      apply ⟨(ofDepth host depth).toCalls, host⟩ operator arguments :=
  (invoke_ofDepth host depth operator arguments).trans (if_neg (by simp [other]))

end Engine

section

variable (host : Host) (leeway : Leeway) {γ : Type} (depth : Nat) (piece : Calls → Eval γ)
  (reached : State)

/-- Running code in a place, at a depth and from a state, comes to a piece that runs at its own depth
from the state reached. The trail has the calls between the two, innermost first. -/
inductive Within : {α : Type} → Option ScopeId → Nat → (Calls → Eval α) → State →
    List (Option String) → Prop where
  | here {place : Option ScopeId} : Within place depth piece reached []
  | first {α β : Type} {place : Option ScopeId} {outer : Nat} {start : Calls → Eval α}
      {next : α → Calls → Eval β} {state : State} {trail : List (Option String)}
      (before : Code host leeway (fun _ => True) place start)
      (rest : ∀ value, Code host leeway (fun _ => True) place (next value))
      (inside : Within place outer start state trail) :
      Within place outer (fun calls => start calls >>= fun value => next value calls) state trail
  | later {α β : Type} {place : Option ScopeId} {outer : Nat} {start : Calls → Eval α}
      {next : α → Calls → Eval β} {state middle : State} {value : α} {trail : List (Option String)}
      (before : Code host leeway (fun _ => True) place start)
      (ran : (start (Engine.ofDepth host outer).toCalls).outcome state = (.ok value, middle))
      (inside : Within place outer (next value) middle trail) :
      Within place outer (fun calls => start calls >>= fun value => next value calls) state trail
  | block {α : Type} {place : Option ScopeId} {outer : Nat} {around : Option ScopeId}
      {body : ScopeId → Calls → Eval α} {state : State} {trail : List (Option String)}
      (inside : Within (some state.scopes.size) outer (body state.scopes.size)
        ((Eval.child around).outcome state).2 trail) :
      Within place outer (fun calls => Eval.child around >>= fun inner => body inner calls) state trail
  | evaluating {outer : Nat} {scope : ScopeId} {expr : Expr} {state : State}
      {trail : List (Option String)}
      (inside : Within (some scope) outer
        (fun calls => Engine.evaluateStep ⟨calls, host⟩ scope expr) state trail) :
      Within (some scope) (outer + 1) (fun calls => calls.evaluate scope expr) state trail
  | invoking {place : Option ScopeId} {outer : Nat} {operator : Value} {arguments : List Value}
      {state : State} {trail : List (Option String)} (invokable : operator.isInvokable = true)
      (inside : Within (operator.handed? arguments) outer
        (fun calls => Engine.apply ⟨calls, host⟩ operator arguments) state trail) :
      Within place (outer + 1) (fun calls => calls.invoke operator arguments) state
        (trail ++ [some operator.callee])
  | refusing {place : Option ScopeId} {outer : Nat} {operator : Value} {arguments : List Value}
      {state : State} {trail : List (Option String)} (other : operator.isInvokable = false)
      (inside : Within none outer (fun calls => Engine.apply ⟨calls, host⟩ operator arguments)
        state trail) :
      Within place (outer + 1) (fun calls => calls.invoke operator arguments) state trail
  | expanding {place : Option ScopeId} {outer : Nat} {function : Value} {arguments : List Value}
      {state : State} {trail : List (Option String)}
      (inside : Within place outer (fun calls => Engine.direct ⟨calls, host⟩ function arguments)
        state trail) :
      Within place outer (fun calls => Engine.direct ⟨calls, host⟩ function arguments) state
        (trail ++ [none])
  | roaming (allowed : leeway.roams) {place : Option ScopeId} {outer : Nat} {scope : ScopeId}
      {expr : Expr} {state : State} {trail : List (Option String)}
      (inside : Within (some scope) outer
        (fun calls => Engine.evaluateStep ⟨calls, host⟩ scope expr) state trail) :
      Within place (outer + 1) (fun calls => calls.evaluate scope expr) state trail
  | tried (allowed : leeway.recovers) {α : Type} {place : Option ScopeId} {outer : Nat}
      {run : Calls → Eval α} {handler : Fault → Calls → Eval α} {state : State}
      {trail : List (Option String)} (tries : Code host leeway (fun _ => True) place run)
      (goesOn : ∀ fault, Code host leeway (fun _ => True) place (handler fault))
      (inside : Within place outer run state trail) :
      Within place outer (fun calls => tryCatch (run calls) fun fault => handler fault calls) state
        trail
  | handled (allowed : leeway.recovers) {α : Type} {place : Option ScopeId} {outer : Nat}
      {run : Calls → Eval α} {handler : Fault → Calls → Eval α} {state middle : State} {fault : Fault}
      {trail : List (Option String)} (tries : Code host leeway (fun _ => True) place run)
      (ran : (run (Engine.ofDepth host outer).toCalls).outcome state = (.error fault, middle))
      (inside : Within place outer (handler fault) middle trail) :
      Within place outer (fun calls => tryCatch (run calls) fun fault => handler fault calls) state
        trail

end

end HostLisp
