import HostLisp.Proofs.Shapes

/-!
Calls of special forms. Arguments of the wrong shape are refused before anything happens. With
arguments of its shape a form starts evaluations, one after the other, and fails when one of them does.
-/

namespace HostLisp

theorem Eval.outcome_bind_error_iff {α β : Type} {act : Eval α} {next : α → Eval β}
    {state after : State} {fault : Fault} :
    (act >>= next).outcome state = (.error fault, after) ↔
      act.outcome state = (.error fault, after) ∨
        ∃ value middle, act.outcome state = (.ok value, middle) ∧
          (next value).outcome middle = (.error fault, after) := by
  rcases ran : act.outcome state with ⟨result, middle⟩
  cases result with
  | error earlier =>
    rw [Eval.outcome_bind_error ran]
    simp
  | ok value =>
    rw [Eval.outcome_bind_ok ran]
    constructor
    · exact fun failed => .inr ⟨value, middle, rfl, failed⟩
    · rintro (earlier | ⟨_, _, same, failed⟩)
      · cases earlier
      · cases same
        exact failed

structure Evaluation where
  scope : ScopeId
  expr : Expr
  state : State

def Evaluation.outcome (evaluation : Evaluation) (engine : Engine) : Except Fault Value × State :=
  (engine.evaluate evaluation.scope evaluation.expr).outcome evaluation.state

namespace Engine

/-- A computation fails exactly as one of the evaluations that it starts. -/
def Relays (engine : Engine) {α : Type} (act : Eval α) (state : State)
    (starts : Evaluation → Prop) : Prop :=
  ∀ fault after, act.outcome state = (.error fault, after) ↔
    ∃ evaluation, starts evaluation ∧ evaluation.outcome engine = (.error fault, after)

section

variable {engine : Engine} {scope : ScopeId} {α β : Type}

theorem relays_nothing {act : Eval α} {state after : State} {value : α}
    (ran : act.outcome state = (.ok value, after)) {starts : Evaluation → Prop}
    (none : ∀ evaluation, ¬ starts evaluation) : engine.Relays act state starts := by
  intro fault after
  rw [ran]
  exact ⟨nofun, fun ⟨evaluation, started, _⟩ => (none evaluation started).elim⟩

namespace Relays

variable {act : Eval α} {state : State} {starts : Evaluation → Prop}

theorem congr (relays : engine.Relays act state starts) {others : Evaluation → Prop}
    (same : ∀ evaluation, starts evaluation ↔ others evaluation) : engine.Relays act state others := by
  intro fault after
  simp only [relays fault after, same]

theorem andThen (relays : engine.Relays act state starts) {next : α → Eval β}
    {later : α → State → Evaluation → Prop}
    (rest : ∀ value middle, engine.Relays (next value) middle (later value middle)) :
    engine.Relays (act >>= next) state fun evaluation =>
      starts evaluation ∨
        ∃ value middle, act.outcome state = (.ok value, middle) ∧ later value middle evaluation := by
  intro fault after
  simp only [Eval.outcome_bind_error_iff, relays fault after, rest _ _ fault after]
  constructor
  · rintro (⟨evaluation, started, failed⟩ | ⟨value, middle, ran, evaluation, started, failed⟩)
    · exact ⟨evaluation, .inl started, failed⟩
    · exact ⟨evaluation, .inr ⟨value, middle, ran, started⟩, failed⟩
  · rintro ⟨evaluation, started | ⟨value, middle, ran, started⟩, failed⟩
    · exact .inl ⟨evaluation, started, failed⟩
    · exact .inr ⟨value, middle, ran, evaluation, started, failed⟩

theorem after {value : α} {middle : State} (ran : act.outcome state = (.ok value, middle))
    {next : α → Eval β} (rest : engine.Relays (next value) middle starts) :
    engine.Relays (act >>= next) state starts := by
  intro fault after
  rw [Eval.outcome_bind_ok ran]
  exact rest fault after

theorem unlessFlawed (relays : engine.Relays act state starts) {flaw : Option Flaw}
    (written : flaw = none) : engine.Relays (Eval.unlessFlawed flaw act) state starts := by
  subst written
  exact relays

theorem before (relays : engine.Relays act state starts) {next : α → Eval β}
    (ends : ∀ value middle, ∃ result after, (next value).outcome middle = (.ok result, after)) :
    engine.Relays (act >>= next) state starts := by
  have rest : ∀ value middle, engine.Relays (next value) middle fun _ => False := by
    intro value middle
    obtain ⟨result, after, ran⟩ := ends value middle
    exact relays_nothing ran nofun
  refine (relays.andThen rest).congr fun evaluation => ?_
  simp

end Relays

end

inductive StartsInBody (engine : Engine) (scope : ScopeId) :
    List Expr → State → Evaluation → Prop where
  | here (expr : Expr) (body : List Expr) (state : State) :
      StartsInBody engine scope (expr :: body) state ⟨scope, expr, state⟩
  | later {first : Expr} {body : List Expr} {state middle : State} {value : Value}
      {evaluation : Evaluation}
      (ran : (engine.evaluate scope first).outcome state = (.ok value, middle))
      (starts : StartsInBody engine scope body middle evaluation) :
      StartsInBody engine scope (first :: body) state evaluation

/-- The tests of clauses are evaluated in turn up to one that holds, whose action comes next. -/
inductive StartsInClauses (engine : Engine) (scope : ScopeId) :
    List Expr → State → Evaluation → Prop where
  | test (test action : Expr) (clauses : List Expr) (state : State) :
      StartsInClauses engine scope (.list [test, action] :: clauses) state ⟨scope, test, state⟩
  | action {test : Expr} (action : Expr) (clauses : List Expr) {state middle : State} {value : Value}
      (ran : (engine.evaluate scope test).outcome state = (.ok value, middle))
      (holds : value.isTruthy = true) :
      StartsInClauses engine scope (.list [test, action] :: clauses) state ⟨scope, action, middle⟩
  | later {test : Expr} (action : Expr) {clauses : List Expr} {state middle : State} {value : Value}
      {evaluation : Evaluation}
      (ran : (engine.evaluate scope test).outcome state = (.ok value, middle))
      (fails : value.isTruthy = false)
      (starts : StartsInClauses engine scope clauses middle evaluation) :
      StartsInClauses engine scope (.list [test, action] :: clauses) state evaluation

inductive StartsInSteps (engine : Engine) (scope : ScopeId) (splice : Splice) :
    Value → List Expr → State → Evaluation → Prop where
  | here (head : Expr) (arguments steps : List Expr) (value : Value) {state marked : State}
      {stamp : Stamp} (stamped : Eval.spliceStamp.outcome state = (.ok stamp, marked)) :
      StartsInSteps engine scope splice value (.list (head :: arguments) :: steps) state
        ⟨scope, stepCall splice ⟨head, arguments⟩ (.value value stamp), marked⟩
  | later {head : Expr} {arguments steps : List Expr} {value result : Value}
      {state marked middle : State} {stamp : Stamp} {evaluation : Evaluation}
      (stamped : Eval.spliceStamp.outcome state = (.ok stamp, marked))
      (ran : (engine.evaluate scope (stepCall splice ⟨head, arguments⟩ (.value value stamp))).outcome
        marked = (.ok result, middle))
      (starts : StartsInSteps engine scope splice result steps middle evaluation) :
      StartsInSteps engine scope splice value (.list (head :: arguments) :: steps) state evaluation

inductive StartsInThread (engine : Engine) (scope : ScopeId) (splice : Splice) :
    List Expr → State → Evaluation → Prop where
  | start (start first : Expr) (steps : List Expr) (state : State) :
      StartsInThread engine scope splice (start :: first :: steps) state ⟨scope, start, state⟩
  | step {start : Expr} {steps : List Expr} {value : Value} {state middle : State}
      {evaluation : Evaluation}
      (ran : (engine.evaluate scope start).outcome state = (.ok value, middle))
      (starts : StartsInSteps engine scope splice value steps middle evaluation) :
      StartsInThread engine scope splice (start :: steps) state evaluation

/-- The evaluations that a special form starts in a scope. -/
inductive Starts (engine : Engine) (scope : ScopeId) :
    Form → List Expr → State → Evaluation → Prop where
  | sequence {body : List Expr} {state : State} {evaluation : Evaluation}
      (starts : StartsInBody engine scope body state evaluation) :
      Starts engine scope .sequence body state evaluation
  | block {inner : ScopeId} {body : List Expr} {state opened : State} {evaluation : Evaluation}
      (opens : (Eval.child scope).outcome state = (.ok inner, opened))
      (starts : StartsInBody engine inner body opened evaluation) :
      Starts engine scope .block body state evaluation
  | label (name : String) (expr : Expr) (state : State) :
      Starts engine scope .label [.symbol name, expr] state ⟨scope, expr, state⟩
  | setGlobal (name : String) (expr : Expr) (state : State) :
      Starts engine scope .setGlobal [.symbol name, expr] state ⟨scope, expr, state⟩
  | cond {clauses : List Expr} {state : State} {evaluation : Evaluation}
      (starts : StartsInClauses engine scope clauses state evaluation) :
      Starts engine scope .cond clauses state evaluation
  | threadFirst {arguments : List Expr} {state : State} {evaluation : Evaluation}
      (starts : StartsInThread engine scope .first arguments state evaluation) :
      Starts engine scope .threadFirst arguments state evaluation
  | threadLast {arguments : List Expr} {state : State} {evaluation : Evaluation}
      (starts : StartsInThread engine scope .last arguments state evaluation) :
      Starts engine scope .threadLast arguments state evaluation
  | eval (expr : Expr) (state : State) :
      Starts engine scope .eval [expr] state ⟨scope, expr, state⟩
  | code {expr code : Expr} {state middle : State}
      (ran : (engine.evaluate scope expr).outcome state = (.ok (.code code), middle)) :
      Starts engine scope .eval [expr] state ⟨scope, code, middle⟩
  | doc (name : String) (state : State) :
      Starts engine scope .doc [.symbol name] state ⟨scope, .symbol name, state⟩

section

variable (engine : Engine) (scope : ScopeId)

end

end Engine

end HostLisp
