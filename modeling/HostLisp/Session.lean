import HostLisp.Evaluator
import HostLisp.Expr.Reading
import HostLisp.Host.Catalogue

/-!
Sessions: submissions are read and evaluated one after the other against one root scope. A
submission that fails leaves the session usable.
-/

namespace HostLisp.Session

abbrev Reader := String → String → Except ReadFailure Expr

def reader : Reader := fun source name => Expr.parse source (some name)

def initial (bindings : List Binding) : State := { scopes := .withRoot bindings }

def submissionName (usual : String) (name : Option String) : String :=
  match name with
  | some name => if name.isEmpty then usual else name
  | none => usual

def guardDepth {α : Type} (name : String) (computation : Eval α) : Eval α :=
  tryCatch computation fun
    | .crash .recursion => Eval.fail (.tooDeep name)
    | fault => throw fault

theorem outcome_guardDepth {α : Type} (name : String) (computation : Eval α) (state : State) :
    (guardDepth name computation).outcome state =
      match computation.outcome state with
      | (.error (.crash .recursion), after) => (.error (.failure (.tooDeep name)), after)
      | other => other := by
  unfold Eval.outcome guardDepth
  rw [ExceptT.run_tryCatch, StateT.run_bind]
  rcases StateT.run (ExceptT.run computation) state with ⟨(failure | cause) | value, after⟩
  · rfl
  · cases cause <;> rfl
  · rfl

def execute (read : Reader) (root : ScopeId) (usual source : String) (name : Option String)
    (engine : Engine := .standard) : Eval Value := do
  let label := submissionName usual name
  let expr ← Eval.ofExcept (fun failure => .failure (.read failure)) (read source label)
  guardDepth label (engine.evaluate root expr)

/-- Runs submissions until the session is cancelled, and gives the outcome of each. Blank
submissions are passed over; a crash ends the run. -/
def run (read : Reader) (root : ScopeId) (usual : String) (name : Option String)
    (sources : List String) (engine : Engine := .standard) :
    StateM State (List (Except Fault Value)) :=
  match sources with
  | [] => pure []
  | source :: sources => do
    if (← get).cancelled then return []
    else if Text.isBlankText source then run read root usual name sources engine
    else
      match ← (execute read root usual source name engine).run with
      | .error (.crash cause) => return [.error (.crash cause)]
      | outcome =>
        let outcomes ← run read root usual name sources engine
        return outcome :: outcomes

end HostLisp.Session
