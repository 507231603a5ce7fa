import HostLisp.Floating.Basic

/-!
Kinds of runtime values. Kinds are values themselves and have a short name, which messages use, and
a full one.
-/

namespace HostLisp

structure IntegerType where
  signed : Bool
  bits : Nat
deriving DecidableEq

namespace IntegerType

def name (type : IntegerType) : String :=
  (if type.signed then "int" else "uint") ++ toString type.bits

def bound (type : IntegerType) : Nat := 1 <<< (if type.signed then type.bits - 1 else type.bits)

def least (type : IntegerType) : Int := if type.signed then -(type.bound : Int) else 0

def greatest (type : IntegerType) : Int := (type.bound : Int) - 1

def holds (type : IntegerType) (n : Int) : Bool := type.least ≤ n && n ≤ type.greatest

def int8 : IntegerType := ⟨true, 8⟩

def int16 : IntegerType := ⟨true, 16⟩

def int64 : IntegerType := ⟨true, 64⟩

def uint64 : IntegerType := ⟨false, 64⟩

def all : List IntegerType :=
  [8, 16, 32, 64].flatMap fun bits => [⟨true, bits⟩, ⟨false, bits⟩]

end IntegerType

inductive RealType where
  | half
  | single
  | double
deriving DecidableEq

namespace RealType

def bits : RealType → Nat
  | half => 16
  | single => 32
  | double => 64

def name (type : RealType) : String := "float" ++ toString type.bits

def format : RealType → BinaryFormat
  | half => .half
  | single => .single
  | double => .double

def all : List RealType := [half, single, double]

end RealType

inductive Kind where
  | nil
  | bool
  | float
  | int
  | complex
  | text
  | list
  | tuple
  | dict
  | set
  | type
  | function
  | builtin
  | partialApplication
  | form
  | closure
  | adapter
  | scope
  | symbolExpr
  | numberExpr
  | stringExpr
  | listExpr
  | vectorExpr
  | quoteExpr
  | programExpr
  | valueExpr
  | array
  | machineBool
  | machineInt (type : IntegerType)
  | machineFloat (type : RealType)
deriving DecidableEq

namespace Kind

def name : Kind → String
  | nil => "NoneType"
  | bool => "bool"
  | float => "float"
  | int => "int"
  | complex => "complex"
  | text => "str"
  | list => "list"
  | tuple => "tuple"
  | dict => "dict"
  | set => "set"
  | type => "type"
  | function => "function"
  | builtin => "builtin_function_or_method"
  | partialApplication => "partial"
  | form => "Macro"
  | closure => "Lambda"
  | adapter => "HostFunction"
  | scope => "Scope"
  | symbolExpr => "SymbolExpr"
  | numberExpr => "NumberExpr"
  | stringExpr => "StringExpr"
  | listExpr => "ListExpr"
  | vectorExpr => "VectorExpr"
  | quoteExpr => "QuoteExpr"
  | programExpr => "ModuleExpr"
  | valueExpr => "ValueExpr"
  | array => "ndarray"
  | machineBool => "bool"
  | machineInt width => width.name
  | machineFloat width => width.name

def isExpression : Kind → Bool
  | symbolExpr => true
  | numberExpr => true
  | stringExpr => true
  | listExpr => true
  | vectorExpr => true
  | quoteExpr => true
  | programExpr => true
  | valueExpr => true
  | _ => false

def family : Kind → String
  | form => "parens.types.macro."
  | closure => "parens.types.lambda_fn."
  | adapter => "parens.types.host_function."
  | scope => "parens.types.scope."
  | partialApplication => "functools."
  | array => "numpy."
  | machineBool => "numpy."
  | machineInt _ => "numpy."
  | machineFloat _ => "numpy."
  | other => if other.isExpression then "parens.reader.expressions." else ""

def fullName (k : Kind) : String := k.family ++ k.name

def isMachine : Kind → Bool
  | array => true
  | machineBool => true
  | machineInt _ => true
  | machineFloat _ => true
  | _ => false

/-- The name of a kind in the messages of native functions, which name machine kinds in full. -/
def nativeName (k : Kind) : String := if k.isMachine then k.fullName else k.name

end Kind

end HostLisp
