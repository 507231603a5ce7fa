import HostLisp.Crash
import HostLisp.Value.Printer

/-!
Arrays from nested sequences. All rows of an array have the same length, and its elements one type
that all leaves of the sequences fit.
-/

namespace HostLisp

namespace ElementType

def textLength : ElementType → Nat
  | bool => 5
  | integer type => (max (toString type.least).length (toString type.greatest).length) +
      (if type = .int64 then 1 else 0)
  | real _ => 32
  | complex => 64
  | text length => length
  | object => 0

def widerReal (a b : RealType) : RealType := if a.bits < b.bits then b else a

/-- The smallest type for two integer types: signed and unsigned meet in a signed type that is wide
enough, or in a floating-point type when there is none. -/
def joinIntegers (a b : IntegerType) : ElementType :=
  if a.signed = b.signed then integer (if a.bits < b.bits then b else a)
  else
    let (unsigned, signed) := if a.signed then (b, a) else (a, b)
    if unsigned.bits < signed.bits then integer signed
    else if unsigned.bits < 64 then integer ⟨true, 2 * unsigned.bits⟩
    else real .double

def joinReal (a : IntegerType) (b : RealType) : RealType :=
  if a.bits ≤ 8 then b else if a.bits ≤ 16 then widerReal .single b else .double

def join : ElementType → ElementType → ElementType
  | object, _ => object
  | _, object => object
  | text m, other => text (max m other.textLength)
  | other, text n => text (max other.textLength n)
  | complex, _ => complex
  | _, complex => complex
  | bool, other => other
  | other, bool => other
  | integer a, integer b => joinIntegers a b
  | integer a, real b => real (joinReal a b)
  | real a, integer b => real (joinReal b a)
  | real a, real b => real (widerReal a b)

def ofLeaf : Value → ElementType
  | .bool _ => bool
  | .machineBool _ => bool
  | .int n =>
    if IntegerType.int64.holds n then integer .int64
    else if IntegerType.uint64.holds n then integer .uint64
    else object
  | .machineInt type _ => integer type
  | .float _ => real .double
  | .machineFloat type _ => real type
  | .complex _ _ => complex
  | .text s => text (max 1 s.length)
  | _ => object

def joinAll : List ElementType → ElementType
  | [] => real .double
  | type :: types => types.foldl join type

def floating : Value → Floating
  | .bool b => if b then .finite 1 else .finite 0
  | .machineBool b => if b then .finite 1 else .finite 0
  | .int n => .ofInt n
  | .machineInt _ n => .ofInt n
  | .float x => x
  | .machineFloat _ x => x
  | _ => .invalid

/-- A text without the null characters at its end. -/
def storedText (s : String) : String :=
  String.ofList (s.toList.reverse.dropWhile (· = '\x00')).reverse

def element : ElementType → Value → Value
  | bool, .machineBool b => .bool b
  | integer _, .bool b => .int (if b then 1 else 0)
  | integer _, .machineBool b => .int (if b then 1 else 0)
  | integer _, .machineInt _ n => .int n
  | real type, leaf => .float (type.format.cast (floating leaf))
  | complex, .complex re im => .complex re im
  | complex, leaf => .complex (floating leaf) (.finite 0)
  | text _, leaf => .text (storedText leaf.display)
  | _, leaf => leaf

end ElementType

/-- How far sequences nest alike, and whether they stop doing so before the leaves. -/
structure Extent where
  shape : Shape
  ragged : Bool
deriving DecidableEq

namespace Extent

def commonPart : List Nat → List Nat → List Nat
  | m :: ms, n :: ns => if m = n then m :: commonPart ms ns else []
  | _, _ => []

def meet (a b : Extent) : Extent :=
  ⟨commonPart a.shape b.shape, a.ragged || b.ragged || a.shape != b.shape⟩

def ofItems : List Extent → Extent
  | [] => ⟨[0], false⟩
  | first :: others =>
    let inner := others.foldl meet first
    ⟨(others.length + 1) :: inner.shape, inner.ragged⟩

end Extent

namespace Value

mutual

def extent : Value → Extent
  | list items => Extent.ofItems (extents items)
  | tuple items => Extent.ofItems (extents items)
  | array _ shape _ _ => ⟨shape, false⟩
  | _ => ⟨[], false⟩

def extents : List Value → List Extent
  | [] => []
  | value :: values => extent value :: extents values

end

mutual

def leaves : Value → List Value
  | list items => leavesAll items
  | tuple items => leavesAll items
  | array _ _ items _ => items
  | value => [value]

def leavesAll : List Value → List Value
  | [] => []
  | value :: values => leaves value ++ leavesAll values

end

mutual

def elementTypes : Value → List ElementType
  | list items => elementTypesAll items
  | tuple items => elementTypesAll items
  | array element _ _ _ => [element]
  | value => [ElementType.ofLeaf value]

def elementTypesAll : List Value → List ElementType
  | [] => []
  | value :: values => elementTypes value ++ elementTypesAll values

end

def mostDirections : Nat := 64

def toArray (value : Value) : Except Crash Value :=
  match value with
  | array element shape items stamp => .ok (array element shape items stamp)
  | value =>
    let extent := value.extent
    if mostDirections < extent.shape.length then .error (.arrayTooDeep mostDirections)
    else if extent.ragged then .error (.raggedArray extent.shape)
    else
      let element := ElementType.joinAll value.elementTypes
      .ok (array element extent.shape (value.leaves.map element.element) {})

def rows : Shape → List Value → Value
  | [], items => items.headD nil
  | count :: shape, items =>
    list ((Shape.parts (Shape.size shape) count items).map (rows shape))

def ofElement : ElementType → Value → Value
  | .bool, bool b => machineBool b
  | .integer type, int n => machineInt type n
  | .real type, float x => machineFloat type x
  | _, item => item

def slices (element : ElementType) (shape : Shape) (items : List Value) : List Value :=
  match shape with
  | [] => []
  | [_] => items.map (ofElement element)
  | count :: inner =>
    (Shape.parts (Shape.size inner) count items).map fun part => array element inner part {}

end Value

end HostLisp
