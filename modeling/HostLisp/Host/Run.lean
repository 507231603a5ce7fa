import HostLisp.Engine
import HostLisp.Floating.Decimal
import HostLisp.Text.UpperCase
import HostLisp.Value.Comparison

/-!
What native functions compute from converted arguments.
-/

namespace HostLisp

namespace Value

def iterate : Value → Except Crash (List Value)
  | list items => .ok items
  | tuple items => .ok items
  | dict => .ok []
  | text s => .ok (s.toList.map fun c => text (String.singleton c))
  | array element shape items _ => .ok (slices element shape items)
  | value => .error (.notIterable value.kindOf)

def length : Value → Except Crash Nat
  | list items => .ok items.length
  | tuple items => .ok items.length
  | dict => .ok 0
  | text s => .ok s.length
  | array _ (size :: _) _ _ => .ok size
  | value => .error (.noLength value.kindOf)

def greatestFrom (best : Value) : List Value → Except Crash Value
  | [] => .ok best
  | value :: values =>
    match value.greater best with
    | .ok true => greatestFrom value values
    | .ok false => greatestFrom best values
    | .error crash => .error crash

def greatest : List Value → Except Crash Value
  | [] => .error .greatestOfNone
  | [sequence] => do
    match ← sequence.iterate with
    | [] => .error .greatestOfEmpty
    | value :: values => greatestFrom value values
  | value :: values => greatestFrom value values

def join (index : Nat) : List Value → Except Crash String
  | [] => .ok ""
  | text s :: values => (s ++ ·) <$> join (index + 1) values
  | value :: _ => .error (.notJoinable index value.kindOf)

def readFloat : Value → Except Crash Floating
  | bool b => .ok (.finite (if b then 1 else 0))
  | machineBool b => .ok (.finite (if b then 1 else 0))
  | text s =>
    match Floating.ofText? s with
    | some x => .ok x
    | none => .error (.notFloatText s)
  | array _ _ _ _ => .error .notScalar
  | value =>
    match value.quantity? with
    | some quantity => quantity.toFloating
    | none => .error (.notFloat value.kindOf)

def expr? : Value → Option Expr
  | code expr => some expr
  | _ => none

end Value

namespace Native

def ofExcept {α : Type} : Except Crash α → Eval α := Eval.ofExcept .crash

def repeated (s : String) (count : Nat) : String :=
  String.ofList (List.replicate count s.toList).flatten

def clamped (x lo hi : Floating) : Floating := if x.lt lo then lo else if hi.lt x then hi else x

def compute : Native → List Value → Eval Value
  | add, [.float a, .float b] => Eval.fresh (.float (a.add b))
  | sub, [.float a, .float b] => Eval.fresh (.float (a.sub b))
  | mul, [] => pure (.int 1)
  | mul, .float x :: factors =>
    Eval.fresh (.float (factors.foldl (fun
      | product, .float y => product.mul y
      | product, _ => product) x))
  | divide, [.float a, .float b] =>
    if b.isZero then Eval.crash .divisionByZero else Eval.fresh (.float (a.div b))
  | less, [.float a, .float b] => pure (.bool (a.lt b))
  | equal, [a, b] => do
    let result ← ofExcept (a.equality b)
    Eval.fresh result
  | narrow, [.machineInt _ a, .machineInt _ b] => pure (.int (a + b))
  | repeatText, [.text s, .int n] => pure (.text (repeated s n.toNat))
  | total, [.list items] =>
    pure (.int (items.foldl (fun
      | sum, .int n => sum + n
      | sum, _ => sum) 0))
  | pair, [.tuple [.text s, .float x]] => pure (.text (s ++ "=" ++ x.text))
  | shape, [.array _ sizes _ _] => pure (.list (sizes.map fun (size : Nat) => .int size))
  | greet, [.text name] =>
    pure (.text ("hello " ++ (if name.isEmpty then "world" else name)))
  | greet, _ => pure (.text "hello world")
  | flag, [.bool b] => pure (.bool !b)
  | clamp, [.float x] => pure (.float (clamped x (.finite 0) (.finite 1)))
  | clamp, [.float x, .float lo] => pure (.float (clamped x lo (.finite 1)))
  | clamp, [.float x, .float lo, .float hi] => pure (.float (clamped x lo hi))
  | opt, [a] => pure (.list [a, .float (.finite (Dyadic.ofIntWithPrec 3 1))])
  | opt, arguments => pure (.list arguments)
  | boom, _ => Eval.crash .kaput
  | fail, [.text message] => Eval.fail (.raised message)
  | ident, [x] => pure x
  | pack, arguments => pure (.list arguments)
  | asTuple, arguments => pure (.tuple arguments)
  | asInt8, [x] => pure x
  | asSingle, [x] => Eval.fresh x
  | asInt, [x] => pure x
  | record, [x] => do
    Eval.record x
    return x
  | captureOperator, [] => pure (.operative (.native .capture) "capture" {})
  | half, [.float x] => Eval.fresh (.float (x.div (.finite 2)))
  | shout, [.text s] => pure (.text (Text.upperCase s))
  | times, [.int a, .int b] => pure (.int (a * b))
  | concat, arguments => do
    let text ← ofExcept (Value.join 0 arguments)
    return .text text
  | greatest, [x] => do
    let best ← ofExcept (Value.greatest [x])
    if x.isArray then Eval.fresh best else return best
  | greatest, arguments => ofExcept (Value.greatest arguments)
  | length, [x] => do
    let count ← ofExcept x.length
    return .int count
  | cancel, [] => do
    Eval.cancel
    return .nil
  | typeOf, [x] => pure (.kind x.kindOf)
  | afterOne, [x] => pure (.list [.float (.finite 1), x])
  | echo _ _, arguments => pure (.list arguments)
  | native, _ => Eval.crash (.unsuitable native.name)

def shownCall (room : Nat) (name : String) (exprs : List Value) : Eval Value := do
  let look := (← get).scopes.look room
  let exprs := exprs.map (Value.pictured look false)
  Eval.unlessFlawed (Value.flawAmong? room exprs)
    (pure (.list (.text name :: exprs.map fun expr => .text expr.display)))

def run (calls : Calls) : Native → List Value → Eval Value
  | applyTwice, [f, x] => do
    let once ← calls.invoke f [x]
    calls.invoke f [once]
  | map, [f, .list items] => do
    let results ← items.mapM fun item => calls.invoke f [item]
    return .list results
  | call, [f, .list arguments] => calls.invoke f arguments
  | capture, [_, .text name, .list exprs] => shownCall calls.room name exprs
  | native, arguments => native.compute arguments

end Native

/-- The host of the catalogue. Its signatures declare no texts, and its programs make no other calls. -/
def Host.catalogue : Host where
  run := Native.run
  other _ operator _ := Eval.crash (.unsuitable operator.callee)
  signature? _ := none
  names _ := .unknown

end HostLisp
