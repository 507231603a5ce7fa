import HostLisp.Floating.Column
import HostLisp.Grid
import HostLisp.Tree
import HostLisp.Value.Basic

/-!
The written forms of expressions and values. The plain form of an expression is its source text,
that of a text the text itself. The exact form tells all values apart and is used inside
collections and in messages.
-/

namespace HostLisp

/-- The imaginary unit follows its factor; a real part that is the positive zero is left out. -/
def complexText (re im : Floating) : String :=
  let part := Floating.toText .bare .double
  let imaginary := part im ++ "j"
  if re = .finite 0 then imaginary
  else "(" ++ part re ++ (if im.isNegative then "" else "+") ++ imaginary ++ ")"

def Native.text (function : Native) : String :=
  match function.kind with
  | .builtin => "<built-in function " ++ function.name ++ ">"
  | _ => "<function " ++ function.name ++ ">"

/-- A function is told from its namesakes by a mark of eighteen characters that is not shown. -/
def Native.unseen (function : Native) : Nat :=
  match function.kind with
  | .function => 18
  | _ => 0

mutual

def Expr.unseen : Expr → Nat
  | .list items => Tree.total (Expr.unseens items)
  | .vector items => Tree.total (Expr.unseens items)
  | .quote body => Expr.unseen body
  | .program forms => Tree.total (Expr.unseens forms)
  | .value held _ => Value.unseen held
  | _ => 0

def Expr.unseens : List Expr → List Nat
  | [] => []
  | expr :: exprs => Expr.unseen expr :: Expr.unseens exprs

def Value.unseen : Value → Nat
  | .list items => Tree.total (Value.unseens items)
  | .tuple items => Tree.total (Value.unseens items)
  | .array _ shape items _ => Tree.total (Grid.shown shape (Value.unseens items))
  | .code expr => Expr.unseen expr
  | .closure _ body _ _ => Tree.total (Expr.unseens body)
  | .native function => function.unseen
  | .picture _ unseen _ => unseen
  | _ => 0

def Value.unseens : List Value → List Nat
  | [] => []
  | value :: values => Value.unseen value :: Value.unseens values

end

def closureText (params body : List String) : String :=
  "(λ [" ++ " ".intercalate params ++ "] " ++ " ".intercalate body ++ ")"

namespace RealType

def style : RealType → DecimalStyle
  | half => .below 1000
  | single => .below 1000000
  | double => .plain

def text (type : RealType) (x : Floating) : String := x.toText type.style type.format

end RealType

namespace Value

def toReal : Value → Floating
  | float x => x
  | _ => .invalid

def toParts : Value → Floating × Floating
  | complex re im => (re, im)
  | _ => (.invalid, .invalid)

end Value

namespace ElementType

def isImplied : ElementType → Bool
  | bool => true
  | integer type => type = .int64
  | real type => type = .double
  | complex => true
  | _ => false

def note (element : ElementType) : String :=
  "dtype=" ++ (match element with
    | text _ => "'" ++ element.name ++ "'"
    | _ => element.name)

def notes (element : ElementType) (shape : Shape) (count : Nat) : List String :=
  (if (count = 0 ∧ shape ≠ [0]) ∨ Grid.fullSize < count then ["shape=" ++ shape.text] else []) ++
    (if element.isImplied ∧ count ≠ 0 then [] else [element.note])

def withUnit (s : String) : String :=
  Grid.trimEnd s ++ "j" ++ Grid.spaces (s.length - (Grid.trimEnd s).length)

def complexColumn (numbers : List (Floating × Floating)) : List String :=
  let re := Column.Style.write { format := .double } (numbers.map Prod.fst)
  let im := Column.Style.write { format := .double, signed := true } (numbers.map Prod.snd)
  (re.zip im).map fun (re, im) => re ++ withUnit im

def column (element : ElementType) (items : List Value) (exact : List String) : List String :=
  match element with
  | bool => exact.map (Grid.padded "False".length)
  | integer _ => Grid.aligned exact
  | real type => Column.Style.write { format := type.format } (items.map Value.toReal)
  | complex => complexColumn (items.map Value.toParts)
  | _ => exact

def texts (element : ElementType) (shape : Shape) (items : List Value) (exact : List String) :
    List String :=
  element.column (Grid.shown shape items) (Grid.shown shape exact)

end ElementType

mutual

def Expr.source : Expr → String
  | .symbol name => name
  | .number raw _ => raw
  | .string raw => raw
  | .list items => "(" ++ " ".intercalate (Expr.sources items) ++ ")"
  | .vector items => "[" ++ " ".intercalate (Expr.sources items) ++ "]"
  | .quote body => "'" ++ Expr.source body
  | .program forms => "\n".intercalate (Expr.sources forms)
  | .value held _ => Value.display held

def Expr.sources : List Expr → List String
  | [] => []
  | expr :: exprs => Expr.source expr :: Expr.sources exprs

def Expr.tree : Expr → Tree
  | .symbol name => .node "SymbolExpr" "name" (.text name)
  | .number raw _ => .node "NumberExpr" "raw" (.text raw)
  | .string raw => .node "StringExpr" "raw" (.text raw)
  | .list items => .node "ListExpr" "items" (.tuple (Expr.trees items))
  | .vector items => .node "VectorExpr" "items" (.tuple (Expr.trees items))
  | .quote body => .node "QuoteExpr" "expr" (Expr.tree body)
  | .program forms => .node "ModuleExpr" "forms" (.tuple (Expr.trees forms))
  | .value held _ => .node "ValueExpr" "value" (Value.tree held)

def Expr.trees : List Expr → List Tree
  | [] => []
  | expr :: exprs => Expr.tree expr :: Expr.trees exprs

def Value.display : Value → String
  | .nil => "None"
  | .bool b => if b then "True" else "False"
  | .float x => x.text
  | .int n => toString n
  | .complex re im => complexText re im
  | .text s => s
  | .list items => (Tree.list (Value.trees items)).line
  | .tuple items => (Tree.tuple (Value.trees items)).line
  | .dict => "\x7b\x7d"
  | .machineBool b => if b then "True" else "False"
  | .machineInt _ n => toString n
  | .machineFloat type x => type.text x
  | .array element shape items _ =>
    Grid.plain shape (element.texts shape items (Tree.lines (Value.trees items)))
  | .code expr => Expr.source expr
  | .closure params body _ _ => closureText params (Expr.sources body)
  | .form form => "<macro " ++ form.name ++ ">"
  | .operative _ name _ => "<macro " ++ name ++ ">"
  | .native native => native.text
  | .adapter _ name _ _ => "<host-function " ++ name ++ ">"
  | .kind kind => "<class '" ++ kind.fullName ++ "'>"
  | .scope _ => ""
  | .picture text _ _ => text

def Value.tree : Value → Tree
  | .text s => .text s
  | .list items => .list (Value.trees items)
  | .tuple items => .tuple (Value.trees items)
  | .machineBool b => .leaf (if b then "np.True_" else "np.False_")
  | .machineInt type n => .leaf ("np." ++ type.name ++ "(" ++ toString n ++ ")")
  | .machineFloat type x =>
    .leaf ("np." ++ type.name ++ "(" ++ type.text x ++ ")")
  | .array element shape items _ =>
    .leaf (Grid.exact shape (element.texts shape items (Tree.lines (Value.trees items)))
      (element.notes shape items.length)) (Tree.total (Grid.shown shape (Value.unseens items)))
  | .code expr => Expr.tree expr
  | .nil => .leaf "None"
  | .bool b => .leaf (if b then "True" else "False")
  | .float x => .leaf x.text
  | .int n => .leaf (toString n)
  | .complex re im => .leaf (complexText re im)
  | .dict => .leaf "\x7b\x7d"
  | .closure params body _ _ =>
    .leaf (closureText params (Expr.sources body)) (Tree.total (Expr.unseens body))
  | .form form => .leaf ("<macro " ++ form.name ++ ">")
  | .operative _ name _ => .leaf ("<macro " ++ name ++ ">")
  | .native native => .leaf native.text native.unseen
  | .adapter _ name _ _ => .leaf ("<host-function " ++ name ++ ">")
  | .kind kind => .leaf ("<class '" ++ kind.fullName ++ "'>")
  | .scope _ => .leaf ""
  | .picture text unseen _ => .leaf text unseen

def Value.trees : List Value → List Tree
  | [] => []
  | value :: values => Value.tree value :: Value.trees values

end

def Expr.describe (expr : Expr) : String := expr.tree.line

def Value.describe (value : Value) : String := value.tree.line

/-- How a result is shown to the user: functions are opaque, and a whole number has no fraction. -/
def Value.render : Value → String
  | .nil => "nil"
  | .bool b => if b then "true" else "false"
  | .float x =>
    match x.toInt? with
    | some n => toString n
    | none => x.text
  | .machineFloat .double x =>
    match x.toInt? with
    | some n => toString n
    | none => x.text
  | value => if value.isCallable then "func()" else value.display

end HostLisp
