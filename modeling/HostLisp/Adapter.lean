import HostLisp.Host.Run

/-!
Adapters let functions be called with arguments of the language: the number of arguments is checked
first, then every argument is converted, and only then the function runs.
-/

namespace HostLisp

namespace Window

def checkArity (window : Window) (name : String) (count : Nat) : Except Failure Unit :=
  if window.arity.accepts count then .ok () else .error (.hostArity name window.arity count)

def convertFrom (window : Window) (name : String) (index : Nat) :
    List Value → Except Fault (List Value)
  | [] => .ok []
  | value :: values =>
    match Value.convert (window.typeAt index) value with
    | .ok converted => (converted :: ·) <$> window.convertFrom name (index + 1) values
    | .error (.refused refusal) => .error (.failure (.argument name (index + 1) refusal))
    | .error (.crashed crash) => .error (.crash crash)

def guard (window : Window) (name : String) (run : List Value → Eval Value)
    (arguments : List Value) : Eval Value := do
  Eval.ofExcept .failure (window.checkArity name arguments.length)
  let converted ← Eval.ofExcept id (window.convertFrom name 0 arguments)
  run converted

end Window

namespace Value

def ownName? : Value → Option String
  | native function => function.name?
  | kind k => some k.name
  | _ => none

def signature? (host : Host) : Value → Option Signature
  | native function => function.signature?
  | kind k => if k.isMachine then host.signature? k else k.signature?
  | closure _ _ _ _ | adapter _ _ _ _ => some (.ofParams [Native.many "args"])
  | form _ | operative _ _ _ =>
    some (.ofParams [Native.untyped "scope", Native.untyped "name", Native.untyped "exprs"])
  | _ => none

/-- A function without a signature takes everything. -/
def window (host : Host) (function : Value) : Except SignatureError Window :=
  match function.signature? host with
  | none => .ok .everything
  | some signature => signature.window host.names

def signatureFault (function : Value) : SignatureError → Fault
  | .unresolvable crash => .crash crash
  | .keywordRequired parameter => .failure (.keywordRequired function.callee parameter)

end Value

structure Adapter where
  function : Value
  name : String
  window : Window

/-- The adapter of a function. Types given for the parameters take the place of the signature. The
name is the given one, the function's own or that of its kind, the first that is not empty. -/
def Adapter.of (host : Host) (function : Value) (types : Option (List TypeExpr) := none)
    (name : Option String := none) : Except SignatureError Adapter := do
  let window ← match types with
    | some types => pure (Window.exactly types)
    | none => function.window host
  let names := name.toList ++ function.ownName?.toList ++ [function.kindOf.name]
  return ⟨function, (names.find? (!·.isEmpty)).getD "", window⟩

end HostLisp
