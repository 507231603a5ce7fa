import HostLisp.Proofs.Pictures
import HostLisp.Proofs.Within

/-!
Depth. An engine in which evaluation may nest more deeply answers as a shallower one does, unless the
shallower one runs out of depth; and an engine that runs out says so in the end.
-/

namespace HostLisp

/-- Whether a fault tells that no depth was left. It does so as a crash, or as the failure that a call
made of the crash. -/
def Fault.isExhaustion : Fault → Bool
  | .crash .recursion => true
  | .failure (.aborted _ .recursion) => true
  | _ => false

def Settled {α : Type} : Except Fault α → Prop
  | .ok _ => True
  | .error fault => fault.isExhaustion = false

namespace Eval

variable {α β : Type}

/-- The other computation answers as this one does, unless this one runs out of depth. -/
def Agrees (act other : Eval α) : Prop :=
  ∀ state, Settled (act.outcome state).1 → other.outcome state = act.outcome state

namespace Agrees

theorem refl (act : Eval α) : act.Agrees act := fun _ _ => rfl

theorem exhausted (other : Eval α) : (crash .recursion).Agrees other := fun _ settled => nomatch settled

theorem bind {act other : Eval α} {next nextOther : α → Eval β} (first : act.Agrees other)
    (rest : ∀ value, (next value).Agrees (nextOther value)) :
    (act >>= next).Agrees (other >>= nextOther) := by
  intro state settled
  rcases ran : act.outcome state with ⟨result, after⟩
  have same := first state
  rw [ran] at same
  cases result with
  | error fault =>
    rw [outcome_bind_error ran] at settled ⊢
    exact outcome_bind_error (same settled)
  | ok value =>
    rw [outcome_bind_ok ran] at settled ⊢
    rw [outcome_bind_ok (same trivial)]
    exact rest value after settled

theorem contain {act other : Eval α} (inside : act.Agrees other) (callee : String) :
    (contain callee act).Agrees (contain callee other) := by
  intro state settled
  have same := inside state
  rw [outcome_contain] at settled
  rw [outcome_contain, outcome_contain]
  rcases ran : act.outcome state with ⟨(failure | cause) | value, after⟩
  · rw [ran] at settled same
    rw [same settled]
  · rw [ran] at settled same
    have other : Settled (α := α) (.error (.crash cause)) := by
      cases cause with
      | recursion => exact nomatch settled
      | _ => rfl
    rw [same other]
  · rw [ran] at same
    rw [same trivial]

theorem unlessFlawed {flaw wider : Option Flaw} {act other : Eval α}
    (relieved : Flaw.Relieved flaw wider) (same : flaw = none → act = other) :
    (unlessFlawed flaw act).Agrees (unlessFlawed wider other) := by
  rcases relieved with rfl | rfl
  · exact exhausted _
  · cases wider with
    | none => exact same rfl ▸ refl _
    | some flaw => exact refl _

theorem get {next other : State → Eval α} (each : ∀ state, (next state).Agrees (other state)) :
    (MonadState.get >>= next).Agrees (MonadState.get >>= other) :=
  (refl MonadState.get).bind each

end Agrees

end Eval

open Eval

namespace Writes

theorem agrees {host : Host} {run : Calls → Eval Value} {flaw? : Nat → Store → Option Flaw}
    (writes : Writes host run flaw?) {calls other : Calls} (narrower : calls.room ≤ other.room) :
    (run calls).Agrees (run other) := by
  have looks (state : State) := state.scopes.widens_look narrower
  cases writes with
  | bindings scope =>
    refine .get fun state => ?_
    have wider := Nat.succ_le_succ narrower
    obtain ⟨relieved, same⟩ := state.scopes.widens_look wider false scope _ _ wider
    exact .unlessFlawed relieved fun none =>
      congrArg (fun view => pure (Value.text view.display)) (same none)
  | inspected scope exprs =>
    refine .get fun state => ?_
    obtain ⟨relieved, same⟩ := Expr.Told.among (Expr.told_all (looks state) true narrower exprs)
    refine .unlessFlawed relieved fun none => ?_
    rw [Expr.trees_of_view (same none)]
  | refused value =>
    refine .get fun state => ?_
    obtain ⟨relieved, same⟩ := Value.told_pictured (looks state) value true _ _ narrower
    exact .unlessFlawed relieved fun none =>
      congrArg (fun view => fail (.notCallable view.tree.line)) (same none)
  | misshapen error =>
    refine .get fun state => ?_
    obtain ⟨relieved, same⟩ := error.told (looks state) narrower
    exact .unlessFlawed relieved fun none => congrArg (fun message => fail (.shape message)) (same none)
  | shown name exprs =>
    refine .get fun state => ?_
    obtain ⟨relieved, same⟩ := Value.Told.among (Value.told_all (looks state) false narrower exprs)
    refine .unlessFlawed relieved fun none => ?_
    rw [Value.texts_of_views (same none)]
  | signature function =>
    refine .get fun state => ?_
    unfold Value.signatureFlaw?
    split
    · exact .unlessFlawed (Value.told_pictured (looks state) function true _ _ narrower).relieved
        fun _ => rfl
    · exact .refl _
  | text value =>
    refine .get fun state => ?_
    obtain ⟨relieved, same⟩ := Value.told_pictured (looks state) value false _ _ narrower
    exact .unlessFlawed relieved fun none =>
      congrArg (fun view => pure (Value.text view.display)) (same none)

end Writes

structure Calls.Agrees (calls other : Calls) : Prop where
  evaluate : ∀ scope expr, (calls.evaluate scope expr).Agrees (other.evaluate scope expr)
  invoke : ∀ operator arguments,
    (calls.invoke operator arguments).Agrees (other.invoke operator arguments)
  room : calls.room ≤ other.room

section

variable {host : Host} {leeway : Leeway} (passes : ¬leeway.recovers)
include passes

theorem Code.agrees {may : Fault → Prop} {α : Type} {place : Option ScopeId} {run : Calls → Eval α}
    (code : Code host leeway may place run) {calls other : Calls} (agrees : calls.Agrees other) :
    (run calls).Agrees (run other) := by
  induction code with
  | own _ | bindHere _ _ _ | bindRoot _ _ _ => exact .refl _
  | write writes => exact writes.agrees agrees.room
  | evaluate scope expr | roam _ scope expr => exact agrees.evaluate scope expr
  | invoke operator arguments => exact agrees.invoke operator arguments
  | block _ _ inside => exact (Eval.Agrees.refl _).bind inside
  | andThen _ _ first rest => exact first.bind rest
  | expand _ inside => exact inside
  | recover allowed => exact absurd allowed passes

variable (abides : host.Abides leeway)
include abides

theorem Calls.Agrees.evaluateStep {calls other : Calls} (agrees : calls.Agrees other)
    (scope : ScopeId) (expr : Expr) :
    (Engine.evaluateStep ⟨calls, host⟩ scope expr).Agrees
      (Engine.evaluateStep ⟨other, host⟩ scope expr) := by
  have code : Code host leeway (fun _ => True) (some scope) fun calls =>
      Engine.evaluateStep ⟨calls, host⟩ scope expr := .evaluateStep abides (fun _ => trivial) expr
  exact code.agrees passes agrees

theorem Calls.Agrees.apply {calls other : Calls} (agrees : calls.Agrees other) (operator : Value)
    (arguments : List Value) :
    (Engine.apply ⟨calls, host⟩ operator arguments).Agrees
      (Engine.apply ⟨other, host⟩ operator arguments) :=
  (Code.apply abides operator arguments).agrees passes agrees

theorem Calls.Agrees.invokeStep {calls other : Calls} (agrees : calls.Agrees other) (operator : Value)
    (arguments : List Value) :
    (Engine.invokeStep ⟨calls, host⟩ operator arguments).Agrees
      (Engine.invokeStep ⟨other, host⟩ operator arguments) := by
  have applied := agrees.apply passes abides operator arguments
  unfold Engine.invokeStep
  split
  · exact applied.contain operator.callee
  · exact applied

/-- Whole runs: an engine answers as every shallower one that does not run out of depth. -/
theorem Engine.agrees_ofDepth {depth deeper : Nat} (shallower : depth ≤ deeper) :
    (Engine.ofDepth host depth).toCalls.Agrees (Engine.ofDepth host deeper).toCalls := by
  induction depth generalizing deeper with
  | zero => exact ⟨fun _ _ => .exhausted _, fun _ _ => .exhausted _, Nat.zero_le _⟩
  | succ depth ih =>
    obtain ⟨deeper, rfl⟩ : ∃ inner, deeper = inner + 1 := ⟨deeper - 1, by omega⟩
    have inside := ih (Nat.le_of_succ_le_succ shallower)
    refine ⟨fun scope expr => ?_, fun operator arguments => ?_, Nat.succ_le_succ inside.room⟩
    · rw [Engine.evaluate_ofDepth, Engine.evaluate_ofDepth]
      exact inside.evaluateStep passes abides scope expr
    · rw [Engine.invoke_ofDepth, Engine.invoke_ofDepth]
      exact inside.invokeStep passes abides operator arguments

end

end HostLisp
