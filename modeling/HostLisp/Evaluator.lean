import HostLisp.Construct
import HostLisp.Expr.Literal
import HostLisp.Layout

/-!
Evaluation. One step of an engine evaluates an expression or invokes a value with the help of
another engine for everything inside it; stacking steps gives engines of any depth.
-/

namespace HostLisp

namespace Value

def codeCall? : List Value → Option (ScopeId × String × List Expr)
  | [scope id, text name, list items] => (id, name, ·) <$> items.mapM expr?
  | _ => none

def listed? : List Value → Option (List Value)
  | [place, name, exprs] => exprs.items?.map fun items => [place, name, list items]
  | _ => none

end Value

namespace Engine

def choose (engine : Engine) (scope : ScopeId) : List (Expr × Expr) → Eval Value
  | [] => pure .nil
  | (test, action) :: clauses => do
    let value ← engine.evaluate scope test
    if value.isTruthy then engine.evaluate scope action else engine.choose scope clauses

def stepCall (splice : Splice) (step : Step) (value : Expr) : Expr :=
  match splice with
  | .first => .list (step.head :: value :: step.arguments)
  | .last => .list (step.head :: (step.arguments ++ [value]))

def thread (engine : Engine) (scope : ScopeId) (splice : Splice) (value : Value) :
    List Step → Eval Value
  | [] => pure value
  | step :: steps => do
    let stamp ← Eval.spliceStamp
    let result ← engine.evaluate scope (stepCall splice step (.value value stamp))
    engine.thread scope splice result steps

def bindAt (scope : ScopeId) (name : String) (value : Value) : Target → Eval Unit
  | .current => Eval.bind scope name value
  | .root => do
    let state ← get
    Eval.bind (state.scopes.root scope) name value

/-- Documentation that is blank counts as missing. -/
def documentation (name doc : String) (value : Value) : String :=
  (if Text.isBlankText doc then s!"No documentation available for '{name}'" else doc) ++
    "\n\nPython Type: " ++ value.kindOf.name

def perform (engine : Engine) (scope : ScopeId) : Action → Eval Value
  | .sequence body => engine.runBody scope body
  | .block body => do
    let inner ← Eval.child scope
    engine.runBody inner body
  | .bind target name expr => do
    let value ← engine.evaluate scope expr
    bindAt scope name value target
    return value
  | .choose clauses => engine.choose scope clauses
  | .close params body => closure params body scope
  | .define name params body => do
    let value ← closure params body scope
    Eval.bind scope name value
    return .text name
  | .thread _ _ [] => pure .nil
  | .thread splice start (step :: steps) => do
    let value ← engine.evaluate scope start
    engine.thread scope splice value (step :: steps)
  | .quote body => pure (.code body)
  | .eval body => do
    match ← engine.evaluate scope body with
    | .code expr => engine.evaluate scope expr
    | value => pure value
  | .document name => do
    let value ← engine.evaluate scope (.symbol name)
    return .text (documentation name ((← get).scopes.doc scope name) value)
  | .dumpScope => do
    let picture := (← get).scopes.look (engine.room + 1) false scope
    Eval.unlessFlawed (picture.flaw? (engine.room + 1)) (pure (.text picture.display))
  | .inspect exprs => do
    let look := (← get).scopes.look engine.room
    let exprs := exprs.map (Expr.pictured look true)
    Eval.unlessFlawed (Expr.flawAmong? engine.room exprs) do
      Eval.print (Layout.layout 0 0 (.list (Expr.trees exprs)) ++ "\n")
      return .nil

def operatorName : Expr → String
  | .symbol name => name
  | _ => ""

def refuse (engine : Engine) (value : Value) : Eval Value := do
  let shown := value.pictured ((← get).scopes.look engine.room) true
  Eval.unlessFlawed (shown.flaw? engine.room) (Eval.fail (.notCallable shown.describe))

def misshape (engine : Engine) (error : ShapeError) : Eval Value := do
  let look := (← get).scopes.look engine.room
  Eval.unlessFlawed (error.flaw? look engine.room) (Eval.fail (.shape (error.message look)))

def callForm (engine : Engine) (scope : ScopeId) (form : Form) (name : String) (exprs : List Expr) :
    Eval Value :=
  match Action.read form name exprs with
  | .ok action => engine.perform scope action
  | .error error => engine.misshape error

def other (engine : Engine) (operator : Value) (arguments : List Value) : Eval Value :=
  engine.host.other engine.toCalls operator arguments

/-- Calls a value as functions call each other: no crash is contained, and operators that take code are
given the scope, the name and the expressions of a call. -/
def direct (engine : Engine) : Value → List Value → Eval Value
  | .closure params body around stamp, arguments =>
    engine.invoke (.closure params body around stamp) arguments
  | .form form, arguments =>
    match Value.codeCall? arguments with
    | some (scope, name, exprs) => engine.callForm scope form name exprs
    | none => engine.other (.form form) arguments
  | .operative function name stamp, arguments =>
    match Value.listed? arguments with
    | some arguments => engine.direct function arguments
    | none => engine.other (.operative function name stamp) arguments
  | .native native, arguments => engine.host.run engine.toCalls native arguments
  | .adapter function name window _, arguments => window.guard name (engine.direct function) arguments
  | .kind kind, arguments => kind.construct engine arguments
  | value, _ => Eval.crash (.notCallable value.kindOf)

/-- A call: operators that take code are given the arguments as they stand, any other operator takes
their values. -/
def callStep (engine : Engine) (scope : ScopeId) (head : Expr) (arguments : List Expr) :
    Eval Value := do
  match ← engine.evaluate scope head with
  | .form form => engine.callForm scope form (operatorName head) arguments
  | .operative function _ _ =>
    engine.direct function
      [.scope scope, .text (operatorName head), .list (arguments.map .code)]
  | operator =>
    if operator.isInvokable then
      let values ← engine.evaluateAll scope arguments
      engine.invoke operator values
    else engine.refuse operator

def evaluateStep (engine : Engine) (scope : ScopeId) : Expr → Eval Value
  | .symbol name => Eval.lookup scope name
  | .number raw known =>
    match Expr.literalNumber? raw known with
    | some x => pure (.float x)
    | none => Eval.fail (.read ⟨.invalidNumber raw, none⟩)
  | .string raw => pure (.text (Expr.literalText raw))
  | .list [] => pure (.list [])
  | .list (head :: arguments) => engine.callStep scope head arguments
  | .vector items => do return .list (← engine.evaluateAll scope items)
  | .quote body => pure (.code body)
  | .program forms => engine.runBody scope forms
  | .value held _ => pure held

def bindParams (scope : ScopeId) (params : List String) (arguments : List Value) : Eval Unit :=
  (params.zip arguments).forM fun (name, value) => Eval.bind scope name value

def applyClosure (engine : Engine) (params : List String) (body : List Expr)
    (around : Option ScopeId) (arguments : List Value) : Eval Value := do
  if params.length = arguments.length then
    let inner ← Eval.child around
    bindParams inner params arguments
    engine.runBody inner body
  else Eval.fail (.closureArity params.length arguments.length)

def callAdapter (engine : Engine) (adapter : Adapter) (arguments : List Value) : Eval Value :=
  adapter.window.guard adapter.name (engine.direct adapter.function) arguments

def callAdapted (engine : Engine) (function : Value) (arguments : List Value) : Eval Value := do
  let adapter ← Eval.ofExcept function.signatureFault (Adapter.of engine.host function)
  engine.callAdapter adapter arguments

def apply (engine : Engine) (operator : Value) (arguments : List Value) : Eval Value :=
  match operator with
  | .closure params body around _ => engine.applyClosure params body around arguments
  | .adapter function name window _ => engine.callAdapter ⟨function, name, window⟩ arguments
  | .native native => engine.callAdapted (.native native) arguments
  | .kind kind => engine.callAdapted (.kind kind) arguments
  | .form form => Eval.fail (.formInvoked form.name)
  | .operative _ name _ => Eval.fail (.formInvoked name)
  | value => engine.refuse value

/-- One step of invocation. Crashes do not leave a call. -/
def invokeStep (engine : Engine) (operator : Value) (arguments : List Value) : Eval Value :=
  if operator.isInvokable then Eval.contain operator.callee (engine.apply operator arguments)
  else engine.apply operator arguments

def deepen (engine : Engine) : Engine where
  evaluate := engine.evaluateStep
  invoke := engine.invokeStep
  room := engine.room + 1
  host := engine.host

def ofDepth (host : Host) : Nat → Engine
  | 0 => exhausted host
  | depth + 1 => (ofDepth host depth).deepen

def depthLimit : Nat := 1000

def standard : Engine := ofDepth Host.catalogue depthLimit

def evaluateValue (engine : Engine) (scope : ScopeId) : Value → Eval Value
  | .code expr => engine.evaluate scope expr
  | value => Eval.fail (.notCode value.kindOf)

end Engine

end HostLisp
