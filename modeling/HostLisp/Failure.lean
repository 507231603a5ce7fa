import HostLisp.Conversion
import HostLisp.Form.Action
import HostLisp.ReadError

/-!
Failures of programs. Every failure has a cause and one message; crashes are kept apart until a
call contains them.
-/

namespace HostLisp

inductive Failure where
  | read (failure : ReadFailure)
  | unbound (name : String)
  | notCallable (shown : String)
  | formInvoked (name : String)
  | keywordRequired (callee parameter : String)
  | aborted (callee : String) (crash : Crash)
  | closureArity (required given : Nat)
  | hostArity (callee : String) (arity : Arity) (given : Nat)
  | conversion (refusal : Refusal)
  | argument (callee : String) (position : Nat) (refusal : Refusal)
  | shape (message : String)
  | raised (message : String)
  | notCode (found : Kind)
  | tooDeep (sourceName : String)

namespace Failure

def className : Failure → String
  | read failure => if failure.error.isLexical then "ParensLexError" else "ParensSyntaxError"
  | unbound _ => "ParensUnboundSymbol"
  | notCallable _ | formInvoked _ | keywordRequired _ _ | aborted _ _ => "ParensCallError"
  | closureArity _ _ | hostArity _ _ _ => "ParensArityError"
  | conversion _ | argument _ _ _ => "ParensTypeError"
  | shape _ | raised _ => "ParensMacroError"
  | notCode _ | tooDeep _ => "ParensError"

/-- The class of the crash that a failure was made from. -/
def cause? : Failure → Option String
  | aborted _ crash => some crash.className
  | _ => none

def message : Failure → String
  | read failure => failure.message
  | unbound name => s!"unable to resolve symbol: {name}"
  | notCallable shown => "value is not callable: " ++ shown
  | formInvoked name => s!"macro '{name}' cannot be called with evaluated arguments"
  | keywordRequired callee parameter =>
    s!"{callee}: keyword-only parameter '{parameter}' cannot be supplied"
  | aborted callee crash => s!"{callee}: {crash.className}: {crash.text}"
  | closureArity required given => s!"requires {required} arguments, got {given}"
  | hostArity callee arity given => s!"{callee}: requires {arity.text} arguments, got {given}"
  | conversion refusal => refusal.message
  | argument callee position refusal => s!"{callee}: argument {position}: {refusal.message}"
  | shape message => message
  | raised message => message
  | notCode found => s!"cannot evaluate {found.name}"
  | tooDeep sourceName => s!"{sourceName}: nesting too deep"

end Failure

/-- What ends a computation before it has a value. -/
inductive Fault where
  | failure (failure : Failure)
  | crash (crash : Crash)

end HostLisp
