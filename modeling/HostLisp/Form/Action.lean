import HostLisp.Value.Flaw
import HostLisp.Value.Picture
import HostLisp.Value.Printer

/-!
The shapes that special forms ask of their arguments. Reading the arguments of a form gives the
action that it stands for, or says what is wrong with them; no expression is evaluated for that.
-/

namespace HostLisp

inductive ShapeError where
  | notSymbolAndValue (operator : String)
  | boundNotSymbol (operator : String) (found : Kind)
  | clauseNotList
  | clauseNotPair
  | tooFewForLambda (count : Nat)
  | paramsNotVector (found : Kind)
  | paramNotSymbol (found : Kind)
  | tooFewForDefine (count : Nat)
  | definedNotSymbol (found : Kind)
  | nothingToThread (operator : String)
  | stepNotCall (operator : String) (position : Nat) (step : Expr)
  | notOneArgument (form : Form) (count : Nat)
  | documentedNotSymbol (found : Kind)

namespace ShapeError

/-- The name a form was called by, or another one if it was called by none. -/
def calledBy (operator otherwise : String) : String :=
  if operator.isEmpty then otherwise else operator

def message (look : Bool → ScopeId → Value) : ShapeError → String
  | notSymbolAndValue operator => calledBy operator "label" ++ ": expecting symbol and a value"
  | boundNotSymbol operator found =>
    calledBy operator "label" ++ s!": argument 1 must be a symbol, not '{found.name}'"
  | clauseNotList => "cond: all arguments must be lists"
  | clauseNotPair => "cond: each argument must be of the form (test action)"
  | tooFewForLambda count => s!"lambda: at-least two arguments required, got {count}"
  | paramsNotVector found =>
    s!"lambda: first argument must be a vector of symbols, not '{found.name}'"
  | paramNotSymbol found => s!"lambda: param list must contain symbols, not '{found.name}'"
  | tooFewForDefine count => s!"defn: 3 or more arguments required, got {count}"
  | definedNotSymbol found => s!"defn: first argument must be a symbol, not '{found.name}'"
  | nothingToThread operator => calledBy operator "thread" ++ ": at-least 1 argument required"
  | stepNotCall operator position step =>
    calledBy operator "thread" ++
      s!": argument {position} must be a function call, not '{(step.pictured look false).source}'"
  | notOneArgument form count => s!"{form.name}: exactly 1 argument required, got {count}"
  | documentedNotSymbol found => s!"doc: argument must be a Symbol, not '{found.name}'"

def flaw? (look : Bool → ScopeId → Value) (room : Nat) : ShapeError → Option Flaw
  | stepNotCall _ _ step => (step.pictured look false).flaw? room
  | _ => none

end ShapeError

inductive Target where
  | current
  | root
deriving DecidableEq

/-- Where a threaded value enters a call. -/
inductive Splice where
  | first
  | last
deriving DecidableEq

/-- A call that waits for the threaded value: its head and its other arguments. -/
structure Step where
  head : Expr
  arguments : List Expr

inductive Action where
  | sequence (body : List Expr)
  | block (body : List Expr)
  | bind (target : Target) (name : String) (value : Expr)
  | choose (clauses : List (Expr × Expr))
  | close (params : List String) (body : List Expr)
  | define (name : String) (params : List String) (body : List Expr)
  | thread (splice : Splice) (start : Expr) (steps : List Step)
  | quote (body : Expr)
  | eval (body : Expr)
  | document (name : String)
  | dumpScope
  | inspect (exprs : List Expr)

namespace Action

def readBinding (target : Target) (operator : String) : List Expr → Except ShapeError Action
  | [.symbol name, value] => .ok (bind target name value)
  | [other, _] => .error (.boundNotSymbol operator other.kind)
  | _ => .error (.notSymbolAndValue operator)

def readClause : Expr → Except ShapeError (Expr × Expr)
  | .list [test, action] => .ok (test, action)
  | .list _ => .error .clauseNotPair
  | _ => .error .clauseNotList

def readParam : Expr → Except ShapeError String
  | .symbol name => .ok name
  | other => .error (.paramNotSymbol other.kind)

def readParams : Expr → Except ShapeError (List String)
  | .vector items => items.mapM readParam
  | other => .error (.paramsNotVector other.kind)

def readLambda : List Expr → Except ShapeError Action
  | params :: first :: body => do
    let params ← readParams params
    return close params (first :: body)
  | arguments => .error (.tooFewForLambda arguments.length)

def readDefine : List Expr → Except ShapeError Action
  | .symbol name :: params :: first :: body => do
    let params ← readParams params
    return define name params (first :: body)
  | other :: _ :: _ :: _ => .error (.definedNotSymbol other.kind)
  | arguments => .error (.tooFewForDefine arguments.length)

def readSteps (operator : String) (position : Nat) : List Expr → Except ShapeError (List Step)
  | [] => .ok []
  | .list (head :: arguments) :: others => do
    let steps ← readSteps operator (position + 1) others
    return ⟨head, arguments⟩ :: steps
  | other :: _ => .error (.stepNotCall operator position other)

def readThread (splice : Splice) (operator : String) : List Expr → Except ShapeError Action
  | [] => .error (.nothingToThread operator)
  | start :: others => do
    let steps ← readSteps operator 1 others
    return thread splice start steps

def readDocument : List Expr → Except ShapeError Action
  | [.symbol name] => .ok (document name)
  | [other] => .error (.documentedNotSymbol other.kind)
  | arguments => .error (.notOneArgument .doc arguments.length)

def read (form : Form) (operator : String) (arguments : List Expr) : Except ShapeError Action :=
  match form with
  | .sequence => .ok (sequence arguments)
  | .block => .ok (block arguments)
  | .label => readBinding .current operator arguments
  | .setGlobal => readBinding .root operator arguments
  | .cond => choose <$> arguments.mapM readClause
  | .lambda => readLambda arguments
  | .define => readDefine arguments
  | .threadFirst => readThread .first operator arguments
  | .threadLast => readThread .last operator arguments
  | .quote =>
    match arguments with
    | [body] => .ok (quote body)
    | _ => .error (.notOneArgument .quote arguments.length)
  | .eval =>
    match arguments with
    | [body] => .ok (eval body)
    | _ => .error (.notOneArgument .eval arguments.length)
  | .doc => readDocument arguments
  | .dumpScope => .ok dumpScope
  | .inspect => .ok (inspect arguments)

end Action

end HostLisp
