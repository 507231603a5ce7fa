import HostLisp.Evaluator

/-!
Actions that a computation takes on its own: they call nothing and leave the scopes of the session
as they are. How they may end without a value is a parameter.
-/

namespace HostLisp

def Fault.isRead : Fault → Bool
  | .failure (.read _) => true
  | _ => false

namespace Eval

variable {α β : Type} {may : Fault → Prop}

/-- An action that changes no scope, and ends with no other faults than it may. -/
structure Own (may : Fault → Prop) (act : Eval α) : Prop where
  scopes : ∀ state, (act.outcome state).2.scopes = state.scopes
  faults : ∀ state fault, (act.outcome state).1 = .error fault → may fault

theorem Own.weaken {other : Fault → Prop} {act : Eval α} (acts : Own may act)
    (weaker : ∀ fault, may fault → other fault) : Own other act :=
  ⟨acts.scopes, fun state fault ended => weaker fault (acts.faults state fault ended)⟩

theorem own_pure (value : α) : Own may (pure value) := ⟨fun _ => rfl, fun _ _ ended => nomatch ended⟩

theorem own_throw {fault : Fault} (allowed : may fault) : Own may (throw fault : Eval α) := by
  refine ⟨fun _ => rfl, ?_⟩
  rintro _ _ ⟨⟩
  exact allowed

theorem own_fail {failure : Failure} (allowed : may (.failure failure)) :
    Own may (fail failure : Eval α) := own_throw allowed

theorem own_crash {cause : Crash} (allowed : may (.crash cause)) : Own may (crash cause : Eval α) :=
  own_throw allowed

theorem outcome_bind_ok {act : Eval α} {next : α → Eval β} {state after : State} {value : α}
    (ran : act.outcome state = (.ok value, after)) :
    (act >>= next).outcome state = (next value).outcome after := by
  rw [outcome_bind, ran]

theorem outcome_bind_error {act : Eval α} {next : α → Eval β} {state after : State} {fault : Fault}
    (ran : act.outcome state = (.error fault, after)) :
    (act >>= next).outcome state = (.error fault, after) := by
  rw [outcome_bind, ran]

theorem Own.andThen {act : Eval α} {next : α → Eval β} (first : Own may act)
    (rest : ∀ value, Own may (next value)) : Own may (act >>= next) := by
  constructor
  · intro state
    have kept := first.scopes state
    rcases ran : act.outcome state with ⟨result, after⟩
    rw [ran] at kept
    cases result with
    | error fault =>
      rw [outcome_bind_error ran]
      exact kept
    | ok value =>
      rw [outcome_bind_ok ran]
      exact ((rest value).scopes after).trans kept
  · intro state fault ended
    have allowed := first.faults state
    rcases ran : act.outcome state with ⟨result, after⟩
    rw [ran] at allowed
    cases result with
    | error fault =>
      rw [outcome_bind_error ran] at ended
      cases ended
      exact allowed fault rfl
    | ok value =>
      rw [outcome_bind_ok ran] at ended
      exact (rest value).faults after fault ended

theorem outcome_tryCatch (act : Eval α) (handler : Fault → Eval α) (state : State) :
    (tryCatch act handler).outcome state =
      match act.outcome state with
      | (.ok value, after) => (.ok value, after)
      | (.error fault, after) => (handler fault).outcome after := by
  unfold outcome
  rw [ExceptT.run_tryCatch, StateT.run_bind]
  rcases StateT.run (ExceptT.run act) state with ⟨_ | _, _⟩ <;> rfl

theorem own_of_outcome {act : Eval α} (result : State → α) (change : State → State)
    (ends : ∀ state, act.outcome state = (.ok (result state), change state))
    (keeps : ∀ state, (change state).scopes = state.scopes) : Own may act := by
  constructor
  · intro state
    rw [ends]
    exact keeps state
  · intro state fault ended
    rw [ends] at ended
    cases ended

theorem outcome_get_bind {next : State → Eval α} (state : State) :
    (get >>= next).outcome state = (next state).outcome state := rfl

theorem own_get : Own may (get : Eval State) := own_of_outcome id id (fun _ => rfl) fun _ => rfl

theorem own_stamp : Own may stamp :=
  own_of_outcome _ (fun state => { state with serial := state.serial + 1 }) (fun _ => rfl)
    fun _ => rfl

theorem own_spliceStamp : Own may spliceStamp :=
  own_of_outcome _ (fun state => { state with splices := state.splices + 1 }) (fun _ => rfl)
    fun _ => rfl

theorem own_print (text : String) : Own may (print text) :=
  own_of_outcome _ (fun state => { state with output := state.output ++ text }) (fun _ => rfl)
    fun _ => rfl

theorem own_record (value : Value) : Own may (record value) :=
  own_of_outcome _ (fun state => { state with log := state.log ++ [value] }) (fun _ => rfl)
    fun _ => rfl

theorem own_cancel : Own may cancel :=
  own_of_outcome _ (fun state => { state with cancelled := true }) (fun _ => rfl) fun _ => rfl

theorem own_fresh (value : Value) : Own may (fresh value) := by
  unfold fresh
  split
  · exact own_stamp.andThen fun _ => own_pure _
  · exact own_pure _

theorem own_lookup (scope : ScopeId) {name : String} (allowed : may (.failure (.unbound name))) :
    Own may (lookup scope name) := by
  refine own_get.andThen fun state => ?_
  cases state.scopes.resolve? scope name with
  | none => exact own_fail allowed
  | some value => exact own_pure _

theorem resolved_of_lookup {scope : ScopeId} {name : String} {state : State} {value : Value}
    (found : ((lookup scope name).outcome state).1 = .ok value) :
    state.scopes.resolve? scope name = some value := by
  rw [outcome_lookup] at found
  split at found
  · next resolved =>
    cases found
    exact resolved
  · cases found

theorem own_ofExcept {ε : Type} {fault : ε → Fault} {result : Except ε α}
    (allowed : ∀ error, result = .error error → may (fault error)) : Own may (ofExcept fault result) := by
  cases result with
  | ok value => exact own_pure value
  | error error => exact own_throw (allowed error rfl)

theorem own_unlessFlawed (flaw : Option Flaw) {act : Eval α}
    (allowed : ∀ flaw : Flaw, may (.crash flaw.crash)) (rest : Own may act) :
    Own may (unlessFlawed flaw act) := by
  cases flaw with
  | none => exact rest
  | some flaw => exact own_crash (allowed flaw)

theorem own_ite {condition : Prop} [Decidable condition] {first second : Eval α}
    (yes : Own may first) (no : Own may second) : Own may (if condition then first else second) := by
  split
  · exact yes
  · exact no

theorem own_mapM {act : α → Eval β} (each : ∀ item, Own may (act item)) (items : List α) :
    Own may (items.mapM act) := by
  induction items with
  | nil => exact own_pure []
  | cons item items ih =>
    rw [List.mapM_cons]
    exact (each item).andThen fun _ => ih.andThen fun _ => own_pure _

end Eval

end HostLisp
