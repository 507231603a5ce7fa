import HostLisp.Form
import HostLisp.Host.Native
import HostLisp.Number
import HostLisp.Shape

/-!
Expressions and runtime values. Code is data: a value may be an expression, and an expression may
hold a value that is already computed.
-/

namespace HostLisp

/-- Scopes live in a store and are known by their index there. -/
abbrev ScopeId := Nat

inductive ElementType where
  | bool
  | integer (type : IntegerType)
  | real (type : RealType)
  | complex
  | text (length : Nat)
  | object
deriving DecidableEq

def ElementType.name : ElementType → String
  | bool => "bool"
  | integer type => type.name
  | real type => type.name
  | complex => "complex128"
  | text length => "<U" ++ toString length
  | object => "object"

/-- What keeps code or data from being written. -/
inductive Flaw where
  | nesting
  | digits
deriving DecidableEq

mutual

inductive Expr where
  | symbol (name : String)
  /-- A number literal keeps its text; its value may be known beforehand. -/
  | number (raw : String) (known : Option Floating)
  | string (raw : String)
  | list (items : List Expr)
  | vector (items : List Expr)
  | quote (body : Expr)
  /-- Several top-level forms. -/
  | program (forms : List Expr)
  /-- A computed value in the place of an expression. -/
  | value (held : Value) (stamp : Stamp)

inductive Value where
  | nil
  | bool (b : Bool)
  | float (x : Floating)
  | int (n : Int)
  | complex (re im : Floating)
  | text (s : String)
  | list (items : List Value)
  | tuple (items : List Value)
  | dict
  | machineBool (b : Bool)
  | machineInt (type : IntegerType) (n : Int)
  | machineFloat (type : RealType) (x : Floating)
  /-- The elements are listed row by row, as plain values. -/
  | array (element : ElementType) (shape : Shape) (items : List Value) (stamp : Stamp)
  | code (expr : Expr)
  /-- A closure that captured no scope runs in one that nothing encloses. -/
  | closure (params : List String) (body : List Expr) (scope : Option ScopeId) (stamp : Stamp)
  | form (form : Form)
  /-- An operator whose function takes the scope, the name and the expressions of a call. -/
  | operative (function : Value) (name : String) (stamp : Stamp)
  | native (native : Native)
  /-- A function with the window that its arguments have to fit. -/
  | adapter (function : Value) (name : String) (window : Window) (stamp : Stamp)
  | kind (kind : Kind)
  | scope (id : ScopeId)
  /-- What a scope is written as. Only values that are about to be written hold such pictures. -/
  | picture (text : String) (unseen : Nat) (flaw : Option Flaw)

end

instance : Inhabited Expr := ⟨.list []⟩

instance : Inhabited Value := ⟨.nil⟩

namespace Expr

def numeral (raw : String) : Expr := number raw none

def kind : Expr → Kind
  | symbol _ => .symbolExpr
  | number _ _ => .numberExpr
  | string _ => .stringExpr
  | list _ => .listExpr
  | vector _ => .vectorExpr
  | quote _ => .quoteExpr
  | program _ => .programExpr
  | value _ _ => .valueExpr

end Expr

namespace Value

def kindOf : Value → Kind
  | nil => .nil
  | bool _ => .bool
  | float _ => .float
  | int _ => .int
  | complex _ _ => .complex
  | text _ => .text
  | list _ => .list
  | tuple _ => .tuple
  | dict => .dict
  | machineBool _ => .machineBool
  | machineInt type _ => .machineInt type
  | machineFloat type _ => .machineFloat type
  | array _ _ _ _ => .array
  | code expr => expr.kind
  | closure _ _ _ _ => .closure
  | form _ => .form
  | operative _ _ _ => .form
  | native function => function.kind
  | adapter _ _ _ _ => .adapter
  | kind _ => .type
  | scope _ => .scope
  | picture _ _ _ => .scope

def number? : Value → Option Number
  | bool b => some (.ofBool b)
  | int n => some (.exact n)
  | float x => some (.floating x)
  | complex re im => some (.complex re im)
  | machineBool b => some (.ofBool b)
  | machineInt _ n => some (.exact n)
  | machineFloat _ x => some (.floating x)
  | _ => none

def isCallable : Value → Bool
  | closure _ _ _ _ => true
  | form _ => true
  | operative _ _ _ => true
  | native _ => true
  | adapter _ _ _ _ => true
  | kind _ => true
  | _ => false

/-- Operators that take code stand at the head of a call but are not invoked with values. -/
def isInvokable : Value → Bool
  | form _ => false
  | operative _ _ _ => false
  | value => value.isCallable

/-- Only nil and false fail a test. -/
def isTruthy : Value → Bool
  | nil => false
  | bool b => b
  | _ => true

def isStamped : Value → Bool
  | float x => x.isNaN
  | machineFloat _ x => x.isNaN
  | complex re im => re.isNaN || im.isNaN
  | array _ _ _ _ => true
  | _ => false

def stamped (stamp : Stamp) : Value → Value
  | float x => float (x.stamped stamp)
  | machineFloat type x => machineFloat type (x.stamped stamp)
  | complex re im => complex (re.stamped stamp) (im.stamped stamp)
  | array element shape items _ => array element shape items stamp
  | value => value

def callee : Value → String
  | closure _ _ _ _ => "lambda"
  | form operator => operator.name
  | operative _ name _ => name
  | native function => function.name
  | adapter _ name _ _ => name
  | kind k => k.name
  | value => value.kindOf.name

end Value

end HostLisp
