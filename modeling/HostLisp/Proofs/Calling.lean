import HostLisp.Proofs.Depth

/-!
Calls that runs make. Barring some values makes calls of them run out of depth at once. A run that does
not notice that comes to no such call: whatever a run comes to call, it depends on.
-/

namespace HostLisp

/-- The calls of an engine of a depth in which some values are barred from being called. -/
def Calls.barring (barred : Value → Bool) (host : Host) : Nat → Calls
  | 0 => (Engine.exhausted host).toCalls
  | depth + 1 =>
    let engine : Engine := ⟨Calls.barring barred host depth, host⟩
    { evaluate := engine.evaluateStep
      invoke := fun operator arguments =>
        if barred operator then Eval.crash .recursion else engine.invokeStep operator arguments
      room := depth + 1 }

theorem Calls.room_barring (barred : Value → Bool) (host : Host) (depth : Nat) :
    (barring barred host depth).room = (Engine.ofDepth host depth).room := by
  rw [Engine.room_ofDepth]
  cases depth <;> rfl

theorem Eval.settled_of_contain {α : Type} {callee : String} {act : Eval α} {state : State}
    (settled : Settled ((Eval.contain callee act).outcome state).1) :
    Settled (act.outcome state).1 := by
  rw [Eval.outcome_contain] at settled
  split at settled
  · next cause _ ran =>
    rw [ran]
    cases cause with
    | recursion => exact nomatch settled
    | _ => rfl
  · exact settled

section

variable {host : Host} {leeway : Leeway} (passes : ¬leeway.recovers) (abides : host.Abides leeway)
include passes abides

theorem Calls.agrees_barring (barred : Value → Bool) (depth : Nat) :
    (barring barred host depth).Agrees (Engine.ofDepth host depth).toCalls := by
  induction depth with
  | zero => exact ⟨fun _ _ => .exhausted _, fun _ _ => .exhausted _, Nat.le_refl _⟩
  | succ depth ih =>
    refine ⟨fun scope expr => ?_, fun operator arguments => ?_, ?_⟩
    · rw [Engine.evaluate_ofDepth]
      exact ih.evaluateStep passes abides scope expr
    · rw [Engine.invoke_ofDepth]
      simp only [barring]
      split
      · exact .exhausted _
      · exact ih.invokeStep passes abides operator arguments
    · exact Nat.le_of_eq (room_barring barred host (depth + 1))

theorem Within.unsettled {barred : Value → Bool}
    {operator : Value} (called : barred operator = true) {arguments : List Value} {inner : Nat}
    {reached : State} {α : Type} {place : Option ScopeId} {depth : Nat} {run : Calls → Eval α}
    {state : State} {trail : List (Option String)}
    (within : Within host leeway inner (fun calls => calls.invoke operator arguments) reached place depth
      run state trail) :
    ¬Settled ((run (Calls.barring barred host depth)).outcome state).1 := by
  intro settled
  induction within with
  | here =>
    cases inner with
    | zero => exact nomatch settled
    | succ inner =>
      simp only [Calls.barring, if_pos called] at settled
      exact nomatch settled
  | @first _ _ _ outer start _ state _ _ _ _ ih =>
    rcases ran : (start (Calls.barring barred host outer)).outcome state with ⟨result, after⟩
    cases result with
    | error fault =>
      rw [Eval.outcome_bind_error ran] at settled
      exact ih (by rwa [ran])
    | ok value => exact ih (by rw [ran]; trivial)
  | @later _ _ _ outer start _ state middle value _ before ended _ ih =>
    have same := before.agrees passes (Calls.agrees_barring passes abides barred outer) state
    rcases ran : (start (Calls.barring barred host outer)).outcome state with ⟨result, after⟩
    rw [ran, ended] at same
    cases result with
    | error fault =>
      rw [Eval.outcome_bind_error ran] at settled
      cases same settled
    | ok result =>
      rw [Eval.outcome_bind_ok ran] at settled
      cases same trivial
      exact ih settled
  | @block _ _ _ around _ state _ _ ih =>
    rw [Eval.outcome_bind_ok (Eval.outcome_child around state)] at settled
    exact ih settled
  | evaluating _ ih | roaming _ _ ih | expanding _ ih => exact ih settled
  | invoking invokable _ ih =>
    simp only [Calls.barring, Engine.invokeStep, if_pos invokable] at settled
    split at settled
    · exact nomatch settled
    · exact ih (Eval.settled_of_contain settled)
  | refusing other _ ih =>
    simp only [Calls.barring, Engine.invokeStep, other] at settled
    split at settled
    · exact nomatch settled
    · exact ih settled
  | tried allowed | handled allowed => exact absurd allowed passes

end

end HostLisp
