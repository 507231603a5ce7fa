import HostLisp.Value.Basic

/-!
Values that are about to be written. The text of a scope depends on what it binds by then, so pictures
take the place of scopes: exact ones in collections and other exact texts, plain ones elsewhere.
-/

namespace HostLisp

mutual

def Expr.pictured (look : Bool → ScopeId → Value) (exact : Bool) : Expr → Expr
  | .list items => .list (Expr.picturedAll look exact items)
  | .vector items => .vector (Expr.picturedAll look exact items)
  | .quote body => .quote (Expr.pictured look exact body)
  | .program forms => .program (Expr.picturedAll look exact forms)
  | .value held stamp => .value (Value.pictured look exact held) stamp
  | expr => expr

def Expr.picturedAll (look : Bool → ScopeId → Value) (exact : Bool) : List Expr → List Expr
  | [] => []
  | expr :: exprs => Expr.pictured look exact expr :: Expr.picturedAll look exact exprs

def Value.pictured (look : Bool → ScopeId → Value) (exact : Bool) : Value → Value
  | .list items => .list (Value.picturedAll look items)
  | .tuple items => .tuple (Value.picturedAll look items)
  | .array element shape items stamp => .array element shape (Value.picturedAll look items) stamp
  | .code expr => .code (Expr.pictured look exact expr)
  | .closure params body scope stamp => .closure params (Expr.picturedAll look false body) scope stamp
  | .scope id => look exact id
  | value => value

def Value.picturedAll (look : Bool → ScopeId → Value) : List Value → List Value
  | [] => []
  | value :: values => Value.pictured look true value :: Value.picturedAll look values

end

end HostLisp
