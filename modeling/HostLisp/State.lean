import HostLisp.Failure
import HostLisp.Store

/-!
The state of a session and the computations that run in it. A computation that fails keeps the
effects it had before.
-/

namespace HostLisp

structure State where
  scopes : Store
  /-- What has been printed. -/
  output : String := ""
  /-- The values that programs recorded, in order. -/
  log : List Value := []
  cancelled : Bool := false
  /-- Tells apart the objects made since the last scope. -/
  serial : Nat := 0
  /-- Tells apart the values placed into code since the last scope. -/
  splices : Nat := 0

abbrev Eval := ExceptT Fault (StateM State)

namespace Eval

variable {α β : Type}

def outcome (computation : Eval α) (state : State) : Except Fault α × State :=
  StateT.run (ExceptT.run computation) state

def fail (failure : Failure) : Eval α := throw (.failure failure)

def crash (cause : Crash) : Eval α := throw (.crash cause)

/-- Does not start a computation that writes what cannot be written. -/
def unlessFlawed (flaw : Option Flaw) (computation : Eval α) : Eval α :=
  match flaw with
  | some flaw => crash flaw.crash
  | none => computation

def ofExcept {ε : Type} (fault : ε → Fault) : Except ε α → Eval α
  | .ok value => pure value
  | .error error => throw (fault error)

def lookup (scope : ScopeId) (name : String) : Eval Value := do
  match (← get).scopes.resolve? scope name with
  | some value => pure value
  | none => fail (.unbound name)

def bind (scope : ScopeId) (name : String) (value : Value) : Eval Unit :=
  modify fun state => { state with scopes := state.scopes.bind scope name value }

def child (around : Option ScopeId) : Eval ScopeId := do
  let state ← get
  let (scopes, id) := state.scopes.child around
  set { state with scopes, serial := 0, splices := 0 }
  return id

def stamp : Eval Stamp := do
  let state ← get
  set { state with serial := state.serial + 1 }
  return ⟨state.scopes.size, state.serial⟩

def spliceStamp : Eval Stamp := do
  let state ← get
  set { state with splices := state.splices + 1 }
  return ⟨state.scopes.size, state.splices⟩

def fresh (value : Value) : Eval Value := do
  if value.isStamped then return value.stamped (← stamp) else return value

def print (text : String) : Eval Unit :=
  modify fun state => { state with output := state.output ++ text }

def record (value : Value) : Eval Unit :=
  modify fun state => { state with log := state.log ++ [value] }

def cancel : Eval Unit := modify fun state => { state with cancelled := true }

/-- A crash inside becomes a failure of the callee; a failure passes unchanged. -/
def contain (callee : String) (computation : Eval α) : Eval α :=
  tryCatch computation fun
    | .crash cause => fail (.aborted callee cause)
    | .failure failure => fail failure

@[simp] theorem outcome_pure (value : α) (state : State) :
    outcome (pure value) state = (.ok value, state) := rfl

theorem outcome_bind (computation : Eval α) (next : α → Eval β) (state : State) :
    outcome (computation >>= next) state =
      match outcome computation state with
      | (.ok value, after) => outcome (next value) after
      | (.error fault, after) => (.error fault, after) := by
  unfold outcome
  rw [ExceptT.run_bind, StateT.run_bind]
  rcases StateT.run (ExceptT.run computation) state with ⟨_ | _, _⟩ <;> rfl

theorem outcome_ofExcept {ε : Type} (fault : ε → Fault) (result : Except ε α) (state : State) :
    outcome (ofExcept fault result) state = (result.mapError fault, state) := by
  cases result <;> rfl

theorem outcome_lookup (scope : ScopeId) (name : String) (state : State) :
    outcome (lookup scope name) state =
      match state.scopes.resolve? scope name with
      | some value => (.ok value, state)
      | none => (.error (.failure (.unbound name)), state) := by
  change outcome (match state.scopes.resolve? scope name with
    | some value => pure value
    | none => fail (.unbound name)) state = _
  cases state.scopes.resolve? scope name <;> rfl

@[simp] theorem outcome_bindName (scope : ScopeId) (name : String) (value : Value)
    (state : State) :
    outcome (bind scope name value) state =
      (.ok (), { state with scopes := state.scopes.bind scope name value }) := rfl

@[simp] theorem outcome_child (around : Option ScopeId) (state : State) :
    outcome (child around) state =
      (.ok state.scopes.size,
        { state with scopes := (state.scopes.child around).1, serial := 0, splices := 0 }) := rfl

@[simp] theorem outcome_stamp (state : State) :
    outcome stamp state =
      (.ok ⟨state.scopes.size, state.serial⟩, { state with serial := state.serial + 1 }) := rfl

theorem outcome_contain (callee : String) (computation : Eval α) (state : State) :
    outcome (contain callee computation) state =
      match outcome computation state with
      | (.error (.crash cause), after) => (.error (.failure (.aborted callee cause)), after)
      | other => other := by
  unfold outcome contain
  rw [ExceptT.run_tryCatch, StateT.run_bind]
  rcases StateT.run (ExceptT.run computation) state with ⟨(_ | _) | _, _⟩ <;> rfl

theorem state_contain (callee : String) (computation : Eval α) (state : State) :
    (outcome (contain callee computation) state).2 = (outcome computation state).2 := by
  rw [outcome_contain]
  rcases outcome computation state with ⟨(_ | _) | _, _⟩ <;> rfl

end Eval

end HostLisp
