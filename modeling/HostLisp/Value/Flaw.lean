import HostLisp.Crash
import HostLisp.Grid
import HostLisp.Value.Basic

/-!
What keeps code and data from being written: an integer with too many digits, or nesting for which
there is no room. Texts are written from left to right, so the first flaw counts.
-/

namespace HostLisp

def Flaw.crash : Flaw → Crash
  | nesting => .recursion
  | digits => .tooManyDigits

def hasText (n : Int) : Bool := decide (n.natAbs < Nat.pow 10 digitLimit)

mutual

def Expr.flaw? : Nat → Expr → Option Flaw
  | 0, _ => some .nesting
  | room + 1, .list items => (Expr.flaws room items).findSome? id
  | room + 1, .vector items => (Expr.flaws room items).findSome? id
  | room + 1, .quote body => Expr.flaw? room body
  | room + 1, .program forms => (Expr.flaws room forms).findSome? id
  | room + 1, .value held _ => Value.flaw? room held
  | _ + 1, _ => none

def Expr.flaws : Nat → List Expr → List (Option Flaw)
  | _, [] => []
  | room, expr :: exprs => Expr.flaw? room expr :: Expr.flaws room exprs

def Value.flaw? : Nat → Value → Option Flaw
  | 0, _ => some .nesting
  | _ + 1, .int n => if hasText n then none else some .digits
  | room + 1, .list items => (Value.flaws room items).findSome? id
  | room + 1, .tuple items => (Value.flaws room items).findSome? id
  | room + 1, .array _ shape items _ => (Grid.shown shape (Value.flaws room items)).findSome? id
  | room + 1, .code expr => Expr.flaw? room expr
  | room + 1, .closure _ body _ _ => (Expr.flaws room body).findSome? id
  | _ + 1, .picture _ _ flaw => flaw
  | _ + 1, _ => none

def Value.flaws : Nat → List Value → List (Option Flaw)
  | _, [] => []
  | room, value :: values => Value.flaw? room value :: Value.flaws room values

end

def Expr.flawAmong? (room : Nat) (exprs : List Expr) : Option Flaw :=
  (Expr.flaws room exprs).findSome? id

def Value.flawAmong? (room : Nat) (values : List Value) : Option Flaw :=
  (Value.flaws room values).findSome? id

end HostLisp
