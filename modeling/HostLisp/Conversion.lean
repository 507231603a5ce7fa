import HostLisp.Value.Array
import HostLisp.Value.Flaw

/-!
Conversion of argument values to the types that host functions declare. A conversion never changes
what a value is; a value without a suitable form is refused.
-/

namespace HostLisp

inductive Refusal where
  | unsuitable (found : Kind) (wanted : TypeExpr)
  | outOfRange (shown : String) (wanted : Kind)
  | wrongCount (expected : Nat) (wanted : TypeExpr) (given : Nat)

def Refusal.message : Refusal → String
  | unsuitable found wanted => s!"cannot convert {found.name} to {wanted.name}"
  | outOfRange shown wanted => s!"value {shown} out of range for {wanted.name}"
  | wrongCount expected wanted given =>
    s!"expected {expected} elements for {wanted.name}, got {given}"

inductive ConversionError where
  | refused (refusal : Refusal)
  | crashed (crash : Crash)

/-- A real number that is not a truth value. -/
inductive Quantity where
  | whole (n : Int)
  | floating (x : Floating)

namespace Quantity

def toInt? : Quantity → Option Int
  | whole n => some n
  | floating x => x.toInt?

def toFloating : Quantity → Except Crash Floating
  | whole n =>
    match Floating.ofInt n with
    | .infinity _ => .error .integerTooLarge
    | x => .ok x
  | floating x => .ok x

/-- Messages write a machine number with the digits of the plain number that it is. -/
def text : Quantity → String
  | whole n => toString n
  | floating x => x.text

end Quantity

namespace Value

def quantity? : Value → Option Quantity
  | int n => some (.whole n)
  | machineInt _ n => some (.whole n)
  | float x => some (.floating x)
  | machineFloat _ x => some (.floating x)
  | _ => none

def items? : Value → Option (List Value)
  | list items => some items
  | tuple items => some items
  | _ => none

/-- The list that a sequence type stands for. Written without a type of elements, the abstract class of
sequences keeps a sequence as it is, and a text is one too. -/
def asSequence? (value : Value) : TypeExpr.SequenceForm → Option Value
  | .abstractSequence =>
    match value with
    | list _ | tuple _ | text _ => some value
    | _ => none
  | _ => list <$> value.items?

def refuse {α : Type} (value : Value) (type : TypeExpr) : Except ConversionError α :=
  .error (.refused (.unsuitable value.kindOf type))

def toQuantity (value : Value) (type : TypeExpr) : Except ConversionError Quantity :=
  match value.quantity? with
  | none => value.refuse type
  | some quantity => .ok quantity

def toFloating (value : Value) (type : TypeExpr) : Except ConversionError Floating := do
  let quantity ← value.toQuantity type
  quantity.toFloating.mapError .crashed

def ofInt (width : IntegerType) (n : Int) : Except Crash Value :=
  if width.holds n then .ok (machineInt width n) else .error (.integerOutOfBounds n width)

def toMachineInt (value : Value) (width : IntegerType) : Except ConversionError Value :=
  match value.quantity?.bind Quantity.toInt? with
  | none => value.refuse (.kind (.machineInt width))
  | some n =>
    if width.holds n then .ok (machineInt width n)
    else if hasText n then .error (.refused (.outOfRange (toString n) (.machineInt width)))
    else .error (.crashed .tooManyDigits)

def exceeds (format : BinaryFormat) (x : Floating) : Bool :=
  match x.abs.toDyadic? with
  | none => false
  | some magnitude => format.greatest < magnitude

def toMachineFloat (value : Value) (width : RealType) : Except ConversionError Value := do
  let quantity ← value.toQuantity (.kind (.machineFloat width))
  let x ← quantity.toFloating.mapError .crashed
  if exceeds width.format x then
    throw (.refused (.outOfRange quantity.text (.machineFloat width)))
  else return machineFloat width (width.format.cast x)

/-- Conversion to a kind. Truth values and numbers never stand for each other. -/
def toKind (value : Value) (target : Kind) : Except ConversionError Value :=
  match target, value with
  | .bool, bool b => .ok (bool b)
  | .bool, machineBool b => .ok (bool b)
  | .machineBool, bool b => .ok (machineBool b)
  | .machineBool, machineBool b => .ok (machineBool b)
  | .machineInt width, value => value.toMachineInt width
  | .machineFloat width, value => value.toMachineFloat width
  | .int, value =>
    match value.quantity?.bind Quantity.toInt? with
    | some n => .ok (int n)
    | none => value.refuse (.kind .int)
  | .float, value => float <$> value.toFloating (.kind .float)
  | .complex, complex re im => .ok (complex re im)
  | .complex, value => (complex · (.finite 0)) <$> value.toFloating (.kind .complex)
  | .array, value =>
    match value with
    | list _ | tuple _ | array _ _ _ _ => value.toArray.mapError .crashed
    | _ => value.refuse (.kind .array)
  | .list, value =>
    match value.items? with
    | some items => .ok (list items)
    | none => value.refuse (.kind .list)
  | .tuple, value =>
    match value.items? with
    | some items => .ok (tuple items)
    | none => value.refuse (.kind .tuple)
  | target, value => if value.kindOf = target then .ok value else value.refuse (.kind target)

mutual

def convert : TypeExpr → Value → Except ConversionError Value
  | .unannotated, value => .ok value
  | .anything, value => .ok value
  | .object, value => .ok value
  | .variable _, value => .ok value
  | .none, value =>
    match value with
    | nil => .ok nil
    | _ => value.refuse .none
  | .kind target, value => value.toKind target
  | .expression, value =>
    match value with
    | code expr => .ok (code expr)
    | _ => value.refuse .expression
  | .sequence spelling, value =>
    match value.asSequence? spelling with
    | some result => .ok result
    | none => value.refuse (.sequence spelling)
  | .sequenceOf spelling [], value =>
    match value.items? with
    | some items => .ok (list items)
    | none => value.refuse (.sequenceOf spelling [])
  | .sequenceOf spelling (element :: others), value =>
    match value.items? with
    | some items => list <$> items.mapM (fun item => convert element item)
    | none => value.refuse (.sequenceOf spelling (element :: others))
  | .tuple spelling, value =>
    match value.items? with
    | some items => .ok (tuple items)
    | none => value.refuse (.tuple spelling)
  | .tupleOf spelling element, value =>
    match value.items? with
    | some items => tuple <$> items.mapM (fun item => convert element item)
    | none => value.refuse (.tupleOf spelling element)
  | .tupleExactly spelling [], value =>
    match value.items? with
    | some items => .ok (tuple items)
    | none => value.refuse (.tupleExactly spelling [])
  | .tupleExactly spelling (first :: others), value =>
    match value.items? with
    | some items =>
      if items.length = others.length + 1 then
        tuple <$> convertEach (first :: others) items
      else
        .error (.refused
          (.wrongCount (others.length + 1) (.tupleExactly spelling (first :: others)) items.length))
    | none => value.refuse (.tupleExactly spelling (first :: others))
  | .union spelling members, value =>
    match convertFirst members value with
    | .ok (some result) => .ok result
    | .ok none => value.refuse (.union spelling members)
    | .error crash => .error (.crashed crash)
  | .callable spelling, value =>
    if value.isInvokable then .ok value else value.refuse (.callable spelling)
  | .callableOf arguments result, value =>
    if value.isInvokable then .ok value else value.refuse (.callableOf arguments result)
  | .generic origin arguments, value =>
    if value.kindOf = origin then .ok value else value.refuse (.generic origin arguments)
  | .literal options, value => value.refuse (.literal options)
  | .annotated type note, value => value.refuse (.annotated type note)

def convertEach : List TypeExpr → List Value → Except ConversionError (List Value)
  | type :: types, value :: values => do
    let first ← convert type value
    let others ← convertEach types values
    return first :: others
  | _, _ => .ok []

def convertFirst : List TypeExpr → Value → Except Crash (Option Value)
  | [], _ => .ok none
  | type :: types, value =>
    match convert type value with
    | .ok result => .ok (some result)
    | .error (.refused _) => convertFirst types value
    | .error (.crashed crash) => .error crash

end

end Value

end HostLisp
