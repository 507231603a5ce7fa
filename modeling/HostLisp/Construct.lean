import HostLisp.Adapter

/-!
Kinds make values when they are called. Those of the language take texts, code, scopes and functions
from programs: a closure may be made without a scope, and any function may become an operator or be
given a window of its own.
-/

namespace HostLisp

namespace Value

def name? : Value → Option String
  | text s => some s
  | _ => none

def itemsOf? {α : Type} (sort : Value → Option α) (value : Value) : Option (List α) :=
  value.items?.bind (·.mapM sort)

def names? : Value → Option (List String)
  | text s => some (s.toList.map String.singleton)
  | value => value.itemsOf? name?

def around? : Value → Option (Option ScopeId)
  | nil => some none
  | scope id => some (some id)
  | _ => none

/-- A value as the type of an argument. What is neither nil nor a kind checks nothing. -/
def type? : Value → Option TypeExpr
  | nil => some .none
  | kind k => some (.kind k)
  | array _ _ _ _ => none
  | _ => some .anything

/-- Looking for the signature of a closure takes writing it. -/
def signatureFlaw? (room : Nat) (look : Bool → ScopeId → Value) (function : Value) : Option Flaw :=
  if function.kindOf = .closure then (function.pictured look true).flaw? room else none

end Value

namespace Engine

def closure (params : List String) (body : List Expr) (around : Option ScopeId) : Eval Value := do
  let stamp ← Eval.stamp
  return .closure params body around stamp

def operative (function : Value) (name : String) : Eval Value := do
  let stamp ← Eval.stamp
  return .operative function (if name.isEmpty then function.ownName?.getD "macro" else name) stamp

def adapter (function : Value) (name : String) (window : Window) : Eval Value := do
  let stamp ← Eval.stamp
  return .adapter function name window stamp

def lookOver (engine : Engine) (function : Value) : Eval Value := do
  let look := (← get).scopes.look engine.room
  Eval.unlessFlawed (function.signatureFlaw? engine.room look) (pure .nil)

def adapt (engine : Engine) (function : Value) : Eval Value := do
  let _ ← engine.lookOver function
  let adapted ← Eval.ofExcept function.signatureFault (Adapter.of engine.host function)
  adapter adapted.function adapted.name adapted.window

def adaptTo (function : Value) (types : List TypeExpr) : Eval Value :=
  adapter function (function.ownName?.getD function.kindOf.name) (.exactly types)

end Engine

namespace Kind

def other (engine : Engine) (kind : Kind) (arguments : List Value) : Eval Value :=
  engine.host.other engine.toCalls (.kind kind) arguments

/-- What arguments make that can be read, or what comes of another call. -/
def orOther {α : Type} (engine : Engine) (kind : Kind) (arguments : List Value) (make : α → Eval Value) :
    Option α → Eval Value
  | some parts => make parts
  | none => kind.other engine arguments

/-- The elements that a loop visits; those of an array are made when they are visited. -/
def visited (value : Value) : Eval (List Value) := do
  let items ← Native.ofExcept value.iterate
  if value.isArray then items.mapM Eval.fresh else return items

def takesOne : Kind → Bool
  | float | bool | list | tuple => true
  | _ => false

def makePlain (engine : Engine) : Kind → List Value → Eval Value
  | float, [] => pure (.float (.finite 0))
  | float, [.float x] => pure (.float x)
  | float, [x] => do
    let result ← Native.ofExcept x.readFloat
    Eval.fresh (.float result)
  | text, [] => pure (.text "")
  | text, [x] => do
    let shown := x.pictured ((← get).scopes.look engine.room) false
    Eval.unlessFlawed (shown.flaw? engine.room) (pure (.text shown.display))
  | bool, [] => pure (.bool false)
  | bool, [x] => do
    let result ← Native.ofExcept x.truth
    return .bool result
  | list, [] => pure (.list [])
  | list, [x] => do
    let items ← visited x
    return .list items
  | tuple, [] => pure (.tuple [])
  | tuple, [x] => do
    let items ← visited x
    return .tuple items
  | nil, [] => pure .nil
  | nil, _ => Eval.crash (.noArguments nil)
  | type, [x] => pure (.kind x.kindOf)
  | type, [] | type, [_, _] => Eval.crash .typeArguments
  | kind, arguments =>
    if kind.takesOne ∧ 1 < arguments.length then Eval.crash (.atMostOneArgument kind arguments.length)
    else kind.other engine arguments

def expr? : Kind → List Value → Option Expr
  | symbolExpr, [.text name] => some (.symbol name)
  | stringExpr, [.text raw] => some (.string raw)
  | numberExpr, [.text raw] => some (.number raw none)
  | numberExpr, [.text raw, .nil] => some (.number raw none)
  | numberExpr, [.text raw, .float x] => some (.number raw (some x))
  | quoteExpr, [.code body] => some (.quote body)
  | listExpr, [] => some (.list [])
  | listExpr, [.tuple items] => Expr.list <$> items.mapM Value.expr?
  | vectorExpr, [] => some (.vector [])
  | vectorExpr, [.tuple items] => Expr.vector <$> items.mapM Value.expr?
  | programExpr, [] => some (.program [])
  | programExpr, [.tuple items] => Expr.program <$> items.mapM Value.expr?
  | _, _ => none

def makeExpr (engine : Engine) : Kind → List Value → Eval Value
  | valueExpr, [held] => do
    let stamp ← Eval.spliceStamp
    return .code (.value held stamp)
  | kind, arguments =>
    kind.orOther engine arguments (fun expr => pure (.code expr)) (kind.expr? arguments)

def makeOperative (engine : Engine) : List Value → Eval Value
  | [wrapped] => Engine.operative wrapped ""
  | [wrapped, .nil] => Engine.operative wrapped ""
  | [wrapped, .text name] => Engine.operative wrapped name
  | arguments => form.other engine arguments

def makeClosure (engine : Engine) : List Value → Eval Value
  | [params, body, captured] =>
    match params.names?, body.itemsOf? Value.expr?, captured.around? with
    | some names, some exprs, some around => Engine.closure names exprs around
    | _, _, _ => closure.other engine [params, body, captured]
  | arguments => closure.other engine arguments

def makeAdapter (engine : Engine) : List Value → Eval Value
  | [wrapped] => engine.adapt wrapped
  | [wrapped, .nil] => engine.adapt wrapped
  | [wrapped, params] =>
    adapter.orOther engine [wrapped, params] (Engine.adaptTo wrapped) (params.itemsOf? Value.type?)
  | arguments => adapter.other engine arguments

def makeScope (engine : Engine) : List Value → Eval Value
  | [] => Value.scope <$> Eval.child none
  | [outer] =>
    scope.orOther engine [outer] (fun around => Value.scope <$> Eval.child around) outer.around?
  | arguments => scope.other engine arguments

def construct (engine : Engine) (kind : Kind) (arguments : List Value) : Eval Value :=
  match kind with
  | form => makeOperative engine arguments
  | closure => makeClosure engine arguments
  | adapter => makeAdapter engine arguments
  | scope => makeScope engine arguments
  | kind => if kind.isExpression then kind.makeExpr engine arguments else kind.makePlain engine arguments

end Kind

end HostLisp
