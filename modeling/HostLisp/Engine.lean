import HostLisp.State

/-!
An engine evaluates expressions and invokes values. Engines differ in how deeply they let these
nest, so the steps of evaluation are written against any engine.
-/

namespace HostLisp

/-- How expressions are evaluated and values invoked, and how deeply a text may nest. -/
structure Calls where
  evaluate : ScopeId → Expr → Eval Value
  invoke : Value → List Value → Eval Value
  room : Nat

structure Host where
  /-- How native functions run. -/
  run : Calls → Native → List Value → Eval Value
  /-- What comes of calls that are made with arguments of other types than the callee is declared for, and
  of calls of foreign kinds. -/
  other : Calls → Value → List Value → Eval Value
  /-- The signatures of foreign kinds. -/
  signature? : Kind → Option Signature
  /-- What the texts name that signatures declare. -/
  names : String → Reference

structure Engine extends Calls where
  host : Host

namespace Engine

/-- Evaluates expressions in order; the value is that of the last one, or nil. -/
def runBody (engine : Engine) (scope : ScopeId) (body : List Expr) : Eval Value :=
  body.foldlM (fun _ expr => engine.evaluate scope expr) .nil

def evaluateAll (engine : Engine) (scope : ScopeId) (exprs : List Expr) : Eval (List Value) :=
  exprs.mapM (engine.evaluate scope)

def exhausted (host : Host) : Engine where
  evaluate _ _ := Eval.crash .recursion
  invoke _ _ := Eval.crash .recursion
  room := 0
  host := host

end Engine

end HostLisp
