import HostLisp.Floating.Shortest
import HostLisp.Kind
import HostLisp.Text.Quoted
import HostLisp.Text.Removal

/-!
Type expressions: what a host function may declare about a parameter, and how it is written in
messages.
-/

namespace HostLisp

namespace TypeExpr

inductive SequenceForm where
  | list
  | namedList
  | namedSequence
  | abstractSequence
  | iterable
  | collection
  | mutableSequence
deriving DecidableEq

inductive TupleForm where
  | tuple
  | namedTuple
deriving DecidableEq

inductive UnionForm where
  | named
  | barred
deriving DecidableEq

inductive CallableForm where
  | named
  | abstract
deriving DecidableEq

inductive Literal where
  | nil
  | bool (b : Bool)
  | int (n : Int)
  | float (x : Floating)
  | text (s : String)
deriving DecidableEq

end TypeExpr

inductive TypeExpr where
  | unannotated
  | anything
  | object
  | none
  | kind (k : Kind)
  | expression
  | variable (name : String)
  | sequence (form : TypeExpr.SequenceForm)
  /-- Of the arguments of a sequence type the first one is the type of its elements. -/
  | sequenceOf (form : TypeExpr.SequenceForm) (arguments : List TypeExpr)
  | tuple (form : TypeExpr.TupleForm)
  | tupleOf (form : TypeExpr.TupleForm) (element : TypeExpr)
  | tupleExactly (form : TypeExpr.TupleForm) (elements : List TypeExpr)
  | union (form : TypeExpr.UnionForm) (members : List TypeExpr)
  | callable (form : TypeExpr.CallableForm)
  | callableOf (arguments : List TypeExpr) (result : TypeExpr)
  | generic (origin : Kind) (arguments : List TypeExpr)
  | literal (options : List TypeExpr.Literal)
  | annotated (type : TypeExpr) (note : String)

namespace TypeExpr

instance : Inhabited TypeExpr := ⟨.unannotated⟩

def SequenceForm.name : SequenceForm → String
  | list => "list"
  | namedList => "List"
  | namedSequence => "Sequence"
  | abstractSequence => "collections.abc.Sequence"
  | iterable => "Iterable"
  | collection => "Collection"
  | mutableSequence => "MutableSequence"

def SequenceForm.isNamed : SequenceForm → Bool
  | list => false
  | abstractSequence => false
  | _ => true

def TupleForm.name : TupleForm → String
  | tuple => "tuple"
  | namedTuple => "Tuple"

def Literal.name : Literal → String
  | nil => "None"
  | bool b => if b then "True" else "False"
  | int n => toString n
  | float x => x.text
  | text s => Text.quoted s

/-- Where a type is written: alone, inside brackets, inside the brackets of a named form, or between
bars. -/
inductive Place where
  | alone
  | bracket
  | named
  | bar
deriving DecidableEq

def kindName : Place → Kind → String
  | .alone, k => k.name
  | .bar, .nil => "None"
  | _, k => k.fullName

def bracketed (head : String) (arguments : List String) : String :=
  head ++ "[" ++ ", ".intercalate arguments ++ "]"

def applied (head : String) (arguments : List String) : String :=
  bracketed head (if arguments.isEmpty then ["()"] else arguments)

def unionName : List TypeExpr → List String → String
  | [.kind .nil, _], [_, name] => bracketed "Optional" [name]
  | [_, .kind .nil], [name, _] => bracketed "Optional" [name]
  | _, names => bracketed "Union" names

mutual

def nameAt (place : Place) : TypeExpr → String
  | unannotated => if place = .alone then "any" else "inspect._empty"
  | anything => "Any"
  | object => "object"
  | none => if place = .named then "NoneType" else "None"
  | kind k => kindName place k
  | expression => if place = .alone then "Expr" else "parens.reader.expressions.Expr"
  | .variable name => "~" ++ name
  | sequence form => if place = .alone ∧ form = .abstractSequence then "Sequence" else form.name
  | sequenceOf form arguments =>
    applied form.name (namesAt (if form.isNamed then .named else .bracket) arguments)
  | tuple form => form.name
  | tupleOf form element =>
    bracketed form.name [nameAt (if form = .namedTuple then .named else .bracket) element, "..."]
  | tupleExactly form elements =>
    applied form.name (namesAt (if form = .namedTuple then .named else .bracket) elements)
  | union .named members => unionName members (namesAt .named members)
  | union .barred members => " | ".intercalate (namesAt .bar members)
  | callable .named => "Callable"
  | callable .abstract => if place = .alone then "Callable" else "collections.abc.Callable"
  | callableOf arguments result =>
    bracketed "Callable" [bracketed "" (namesAt .named arguments), nameAt .named result]
  | generic origin arguments => applied origin.fullName (namesAt .bracket arguments)
  | literal options => applied "Literal" (options.map Literal.name)
  | annotated type note => bracketed "Annotated" [nameAt .named type, Text.quoted note]

def namesAt (place : Place) : List TypeExpr → List String
  | [] => []
  | type :: types => nameAt place type :: namesAt place types

end

def namedMark : String := "typing."

/-- The name of a type in messages. The mark of named forms is left out wherever it stands, also
inside constants and notes. -/
def name (type : TypeExpr) : String := Text.remove namedMark (nameAt .alone type)

def takesBar : TypeExpr → Bool
  | .variable _ => false
  | sequence form => !form.isNamed
  | sequenceOf form _ => !form.isNamed
  | tuple _ => false
  | tupleOf form _ => form = .tuple
  | tupleExactly form _ => form = .tuple
  | union form _ => form = .barred
  | callable form => form = .abstract
  | callableOf _ _ => false
  | literal _ => false
  | annotated _ _ => false
  | _ => true

def alternatives : TypeExpr → List TypeExpr
  | union _ members => members
  | none => [.kind .nil]
  | type => [type]

mutual

/-- The type with all unions and constants in one order, so that types which differ in nothing else
are written alike. -/
def ordered : TypeExpr → TypeExpr
  | sequenceOf form arguments => sequenceOf form (orderedAll arguments)
  | tupleOf form element => tupleOf form (ordered element)
  | tupleExactly form elements => tupleExactly form (orderedAll elements)
  | union _ members =>
    union .named ((orderedAll members).mergeSort fun a b => !(nameAt .named b < nameAt .named a))
  | callableOf arguments result => callableOf (orderedAll arguments) (ordered result)
  | generic origin arguments => generic origin (orderedAll arguments)
  | literal options => literal (options.mergeSort fun a b => !(b.name < a.name))
  | annotated type note => annotated (ordered type) note
  | type => type

def orderedAll : List TypeExpr → List TypeExpr
  | [] => []
  | type :: types => ordered type :: orderedAll types

end

def agrees (a b : TypeExpr) : Bool := nameAt .bracket a.ordered == nameAt .bracket b.ordered

/-- The union of types. Unions inside it are spread out, a type that agrees with an earlier one is
left out, and one type alone is no union. -/
def unionOf (form : UnionForm) (types : List TypeExpr) : TypeExpr :=
  match (types.flatMap alternatives).eraseDupsBy agrees with
  | [type] => type
  | members => union (if types.all takesBar then form else .named) members

def optional (type : TypeExpr) : TypeExpr := unionOf .named [type, .kind .nil]

def oneOf (options : List Literal) : TypeExpr := literal options.eraseDups

mutual

def plain : TypeExpr → TypeExpr
  | sequenceOf form arguments => sequenceOf form (plainAll arguments)
  | tupleOf form element => tupleOf form (plain element)
  | tupleExactly form elements => tupleExactly form (plainAll elements)
  | union form members => unionOf form (plainAll members)
  | callableOf arguments result => callableOf (plainAll arguments) (plain result)
  | generic origin arguments => generic origin (plainAll arguments)
  | annotated type _ => plain type
  | type => type

def plainAll : List TypeExpr → List TypeExpr
  | [] => []
  | type :: types => plain type :: plainAll types

end

def resolved : TypeExpr → TypeExpr
  | none => .kind .nil
  | type => type.plain

end TypeExpr

end HostLisp
