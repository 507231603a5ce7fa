import HostLisp.Comparison
import HostLisp.Kind
import HostLisp.Shape
import HostLisp.Text.Quoted

/-!
Abnormal ends of a computation. A crash is contained at the nearest call and reported there under
the name of its class.
-/

namespace HostLisp

/-- An integer with more digits has no text. -/
def digitLimit : Nat := 4300

inductive Crash where
  | recursion
  | tooManyDigits
  | divisionByZero
  | kaput
  | integerTooLarge
  | integerOutOfBounds (n : Int) (type : IntegerType)
  | raggedArray (shape : Shape)
  | arrayTooDeep (limit : Nat)
  | shapesDiffer (left right : Shape)
  | ambiguousTruth
  | truthOfEmpty
  | notScalar
  | notIterable (found : Kind)
  | noLength (found : Kind)
  | notCallable (found : Kind)
  | incomparable (comparison : Comparison) (left right : Kind)
  /-- There is no machine operation for the element classes of the two sides. -/
  | noOperation (comparison : Comparison) (left right : String)
  | greatestOfNone
  | greatestOfEmpty
  | notJoinable (index : Nat) (found : Kind)
  | notFloatText (text : String)
  | notFloat (found : Kind)
  | noArguments (kind : Kind)
  | atMostOneArgument (kind : Kind) (count : Nat)
  | typeArguments
  | unsuitable (name : String)
  /-- Anything else that the functions of a host may end with. -/
  | foreign (className text : String)

namespace Crash

def className : Crash → String
  | recursion => "RecursionError"
  | tooManyDigits => "ValueError"
  | divisionByZero => "ZeroDivisionError"
  | kaput => "RuntimeError"
  | integerTooLarge => "OverflowError"
  | integerOutOfBounds _ _ => "OverflowError"
  | raggedArray _ => "ValueError"
  | arrayTooDeep _ => "ValueError"
  | shapesDiffer _ _ => "ValueError"
  | ambiguousTruth => "ValueError"
  | truthOfEmpty => "ValueError"
  | noOperation _ _ _ => "UFuncTypeError"
  | greatestOfEmpty => "ValueError"
  | notFloatText _ => "ValueError"
  | foreign className _ => className
  | _ => "TypeError"

def text : Crash → String
  | recursion => "maximum recursion depth exceeded"
  | tooManyDigits =>
    s!"Exceeds the limit ({digitLimit} digits) for integer string conversion; use " ++
      "sys.set_int_max_str_digits() to increase the limit"
  | divisionByZero => "float division by zero"
  | kaput => "kaput"
  | integerTooLarge => "int too large to convert to float"
  | integerOutOfBounds n type => s!"Python integer {n} out of bounds for {type.name}"
  | raggedArray shape =>
    "setting an array element with a sequence. The requested array has an inhomogeneous shape " ++
      s!"after {shape.length} dimensions. The detected shape was {shape.text} + " ++
      "inhomogeneous part."
  | arrayTooDeep limit =>
    "setting an array element with a sequence. The requested array would exceed the maximum " ++
      s!"number of dimension of {limit}."
  | shapesDiffer left right =>
    "operands could not be broadcast together with shapes " ++
      s!"{left.compactText} {right.compactText} "
  | ambiguousTruth =>
    "The truth value of an array with more than one element is ambiguous. Use a.any() or a.all()"
  | truthOfEmpty =>
    "The truth value of an empty array is ambiguous. Use `array.size > 0` to check that an array " ++
      "is not empty."
  | notScalar => "only 0-dimensional arrays can be converted to Python scalars"
  | notIterable found => s!"'{found.nativeName}' object is not iterable"
  | notCallable found => s!"'{found.nativeName}' object is not callable"
  | noLength found => s!"object of type '{found.nativeName}' has no len()"
  | incomparable comparison left right =>
    s!"'{comparison.sign}' not supported between instances of '{left.nativeName}' and " ++
      s!"'{right.nativeName}'"
  | noOperation comparison left right =>
    s!"ufunc '{comparison.name}' did not contain a loop with signature matching types " ++
      s!"(<class 'numpy.dtypes.{left}'>, <class 'numpy.dtypes.{right}'>) -> None"
  | greatestOfNone => "max expected at least 1 argument, got 0"
  | greatestOfEmpty => "max() arg is an empty sequence"
  | notJoinable index found => s!"sequence item {index}: expected str instance, {found.nativeName} found"
  | notFloatText text => "could not convert string to float: " ++ Text.quoted text
  | notFloat found => s!"float() argument must be a string or a real number, not '{found.nativeName}'"
  | noArguments kind => kind.name ++ " takes no arguments"
  | atMostOneArgument kind count => s!"{kind.name} expected at most 1 argument, got {count}"
  | typeArguments => "type() takes 1 or 3 arguments"
  | unsuitable name => s!"unsupported arguments for {name}"
  | foreign _ text => text

end Crash

end HostLisp
