import HostLisp.Proofs.Depth
import HostLisp.Proofs.Endings
import HostLisp.Session
import Mathlib.Logic.Function.Iterate

/-!
Quotation and its evaluation. A quote mark makes code of an expression, and a call of `eval` takes one
mark off again. With fewer calls than marks nothing is evaluated; with as many, the expression is evaluated
once, whatever it gives.
-/

namespace HostLisp

open Eval

def Expr.evalCall (body : Expr) : Expr := .list [.symbol "eval", body]

theorem Engine.evaluate_quote (host : Host) (scope : ScopeId) (body : Expr)
    (depth : Nat) (state : State) :
    ((ofDepth host (depth + 1)).evaluate scope (.quote body)).outcome state = (.ok (.code body), state) :=
  rfl

section

variable (host : Host) {scope : ScopeId} {state : State}
  (core : state.scopes.resolve? scope "eval" = some (.form .eval))
include core

theorem Engine.evaluate_evalCall {body expr : Expr} {depth : Nat} {after : State}
    (code : ((ofDepth host (depth + 1)).evaluate scope body).outcome state = (.ok (.code expr), after)) :
    ((ofDepth host (depth + 2)).evaluate scope (.evalCall body)).outcome state =
      ((ofDepth host (depth + 1)).evaluate scope expr).outcome after := by
  have reads : Action.read .eval "eval" [body] = .ok (.eval body) := rfl
  rw [Expr.evalCall, evaluate_formName core reads, perform, outcome_bind_ok code]

/-- Fewer calls than marks: each call takes a mark off, and nothing happens. -/
theorem Engine.evaluate_evalCalls (expr : Expr) (k left depth : Nat) :
    ((ofDepth host (depth + k + 1)).evaluate scope
      (Expr.evalCall^[k] (Expr.quote^[left + k + 1] expr))).outcome state =
        (.ok (.code (Expr.quote^[left] expr)), state) := by
  induction k generalizing left with
  | zero =>
    rw [Function.iterate_zero, id, Function.iterate_succ_apply']
    exact evaluate_quote host scope _ depth state
  | succ k ih =>
    have inner := ih (left + 1)
    rw [Nat.add_right_comm left 1 k, Function.iterate_succ_apply' Expr.quote left] at inner
    rw [Function.iterate_succ_apply']
    exact (evaluate_evalCall host core inner).trans (evaluate_quote host scope _ (depth + k) state)

theorem Engine.evaluate_evalCalls_all (expr : Expr) (k depth : Nat) :
    ((ofDepth host (depth + k + 2)).evaluate scope
      (Expr.evalCall^[k + 1] (Expr.quote^[k + 1] expr))).outcome state =
        ((ofDepth host (depth + k + 1)).evaluate scope expr).outcome state := by
  have inner := evaluate_evalCalls host core expr k 0 depth
  rw [Nat.zero_add] at inner
  rw [Function.iterate_succ_apply' Expr.evalCall, evaluate_evalCall host core inner]
  rfl

/-- Where `eval` is known by its name, an expression behind quote marks and fewer calls of `eval` gives the
expression behind the marks that are left, and nothing happens. With as many calls as marks it ends in what
the expression itself ends in, be that code again or a fault. -/
theorem eval_undoes_quote (expr : Expr) {n : Nat} (marked : 1 ≤ n) :
    (∀ k < n,
      (∀ depth > k, ((Engine.ofDepth host depth).evaluate scope
        (Expr.evalCall^[k] (Expr.quote^[n] expr))).outcome state =
          (.ok (.code (Expr.quote^[n - 1 - k] expr)), state)) ∧
      ∀ ending, Evaluates host scope (Expr.evalCall^[k] (Expr.quote^[n] expr)) state ending ↔
        ending = (.ok (.code (Expr.quote^[n - 1 - k] expr)), state)) ∧
    (∀ depth ≥ n, ((Engine.ofDepth host (depth + 1)).evaluate scope
      (Expr.evalCall^[n] (Expr.quote^[n] expr))).outcome state =
        ((Engine.ofDepth host depth).evaluate scope expr).outcome state) ∧
    ∀ ending, Evaluates host scope (Expr.evalCall^[n] (Expr.quote^[n] expr)) state ending ↔
      Evaluates host scope expr state ending := by
  refine ⟨fun k less => ?_, ?_⟩
  · have law : ∀ depth > k, ((Engine.ofDepth host depth).evaluate scope
        (Expr.evalCall^[k] (Expr.quote^[n] expr))).outcome state =
          (.ok (.code (Expr.quote^[n - 1 - k] expr)), state) := by
      intro depth more
      have given := Engine.evaluate_evalCalls host core expr k (n - 1 - k) (depth - 1 - k)
      rwa [show depth - 1 - k + k + 1 = depth by omega, show n - 1 - k + k + 1 = n by omega] at given
    have ends : Evaluates host scope (Expr.evalCall^[k] (Expr.quote^[n] expr)) state
        (.ok (.code (Expr.quote^[n - 1 - k] expr)), state) := ⟨trivial, k + 1, law⟩
    refine ⟨law, fun ending => ⟨fun other => other.unique ends, ?_⟩⟩
    rintro rfl
    exact ends
  · have law : ∀ depth ≥ n, ((Engine.ofDepth host (depth + 1)).evaluate scope
        (Expr.evalCall^[n] (Expr.quote^[n] expr))).outcome state =
          ((Engine.ofDepth host depth).evaluate scope expr).outcome state := by
      intro depth more
      have given := Engine.evaluate_evalCalls_all host core expr (n - 1) (depth - n)
      rwa [show depth - n + (n - 1) + 2 = depth + 1 by omega,
        show depth - n + (n - 1) + 1 = depth by omega, Nat.sub_add_cancel marked] at given
    exact ⟨law, fun ending => Ends.deeper_iff law⟩

end

/-- What is recorded is recorded once, and a symbol that the expression gives is not looked up. -/
theorem eval_undoes_quote_recorded :
    let state := Session.initial [.form .eval, .native "record" .record]
    let expr : Expr := .list [.symbol "record", .quote (.symbol "x")]
    Evaluates Host.catalogue 0 (.evalCall (.quote (.quote expr))) state (.ok (.code expr), state) ∧
      Evaluates Host.catalogue 0 (.evalCall (.evalCall (.quote (.quote expr)))) state
        (.ok (.code (.symbol "x")), { state with log := [.code (.symbol "x")] }) := by
  intro state expr
  have core : state.scopes.resolve? 0 "eval" = some (.form .eval) := rfl
  obtain ⟨fewer, -, all⟩ := eval_undoes_quote Host.catalogue core expr (by decide : 1 ≤ 2)
  have ran : ((Engine.ofDepth Host.catalogue 2).evaluate 0 expr).outcome state =
      (.ok (.code (.symbol "x")), { state with log := [.code (.symbol "x")] }) := rfl
  have ends : Evaluates Host.catalogue 0 expr state
      (.ok (.code (.symbol "x")), { state with log := [.code (.symbol "x")] }) := by
    rw [← ran]
    exact .of_settled Native.abides_catalogue (fun agrees => agrees.evaluate 0 expr) trivial
  exact ⟨((fewer 1 (by decide)).2 _).mpr rfl, (all _).mpr ends⟩

end HostLisp
