import HostLisp.Value.Array

/-!
Equality and order of values as host functions see them. Plain numbers compare by value,
expressions by structure, and objects with a stamp by identity. Machine numbers compare in the
format that both sides share, and arrays element by element.
-/

namespace HostLisp

mutual

def Expr.same : Expr → Expr → Bool
  | .symbol a, .symbol b => a == b
  | .number a _, .number b _ => a == b
  | .string a, .string b => a == b
  | .list a, .list b => Expr.sameAll a b
  | .vector a, .vector b => Expr.sameAll a b
  | .quote a, .quote b => Expr.same a b
  | .program a, .program b => Expr.sameAll a b
  | .value _ a, .value _ b => a == b
  | _, _ => false

def Expr.sameAll : List Expr → List Expr → Bool
  | [], [] => true
  | a :: as, b :: bs => Expr.same a b && Expr.sameAll as bs
  | _, _ => false

end

namespace ElementType

def className : ElementType → String
  | bool => "BoolDType"
  | integer type => (if type.signed then "Int" else "UInt") ++ toString type.bits ++ "DType"
  | real type => "Float" ++ toString type.bits ++ "DType"
  | complex => "Complex128DType"
  | text _ => "StrDType"
  | object => "ObjectDType"

def isText : ElementType → Bool
  | text _ => true
  | _ => false

/-- The format in which a plain number meets elements of the type. A float takes on their format, and
the parts of a complex number have single precision at least. -/
def formatBeside : ElementType → Number → BinaryFormat
  | real .double, _ => .double
  | real _, .complex _ _ => .single
  | real type, _ => type.format
  | _, _ => .double

end ElementType

namespace Value

def plain : Value → Value
  | machineBool b => bool b
  | machineInt _ n => int n
  | machineFloat _ x => float x
  | value => value

def isMachineNumber : Value → Bool
  | machineBool _ => true
  | machineInt _ _ => true
  | machineFloat _ _ => true
  | _ => false

/-- Machine numbers and arrays decide for both sides how they compare. -/
def isMachine (value : Value) : Bool := value.kindOf.isMachine

def isSequence : Value → Bool
  | list _ => true
  | tuple _ => true
  | _ => false

def isArray (value : Value) : Bool := value.kindOf = .array

/-- Whether two values are told to be the very same object. Most values are not told apart when they
are equal, so this is needed only for what differs from itself or compares to no truth value. -/
def isSame : Value → Value → Bool
  | float x, float y => x = y
  | machineFloat v x, machineFloat w y => v = w && x = y
  | complex a b, complex c d => a = c && b = d
  | array _ _ _ s, array _ _ _ t => s = t
  | _, _ => false

/-- Zero, the empty text, empty collections, false and nil count as false. -/
def isNonempty : Value → Bool
  | nil => false
  | bool b => b
  | machineBool b => b
  | int n => n != 0
  | machineInt _ n => n != 0
  | float x => !x.isZero
  | machineFloat _ x => !x.isZero
  | complex re im => !(re.isZero && im.isZero)
  | text s => !s.isEmpty
  | list items => !items.isEmpty
  | tuple items => !items.isEmpty
  | dict => false
  | _ => true

def truth : Value → Except Crash Bool
  | array _ _ [] _ => .error .truthOfEmpty
  | array _ _ [item] _ => .ok item.isNonempty
  | array _ _ _ _ => .error .ambiguousTruth
  | value => .ok value.isNonempty

def plainEquals : Value → Value → Bool
  | nil, nil => true
  | text s, text t => s == t
  | dict, dict => true
  | code a, code b => a.same b
  | closure _ _ _ a, closure _ _ _ b => a == b
  | form a, form b => a == b
  | operative _ a s, operative _ b t => a == b && s == t
  | native a, native b => a.name == b.name
  | adapter _ a _ s, adapter _ b _ t => a == b && s == t
  | scope a, scope b => a == b
  | kind a, kind b => a == b
  | a, b =>
    match a.number?, b.number? with
    | some x, some y => x.eq y
    | _, _ => false

def plainOrder? (comparison : Comparison) : Value → Value → Option Bool
  | text s, text t => some (comparison.holdsOf (s < t) (t < s))
  | a, b => do
    let x ← a.number?
    let y ← b.number?
    x.holds? comparison y

def plainHolds (comparison : Comparison) (a b : Value) : Except Crash Bool :=
  if comparison = .equal then .ok (plainEquals a b)
  else
    match plainOrder? comparison a b with
    | some result => .ok result
    | none => .error (.incomparable comparison a.kindOf b.kindOf)

/-- One side of a comparison with machine values. A plain number has no element type: it takes on that
of the other side. -/
structure Operand where
  type : Option ElementType
  shape : Shape
  items : List Value

def plainClassName : Value → String
  | int _ => "_PyLongDType"
  | complex _ _ => "_PyComplexDType"
  | _ => "_PyFloatDType"

def Operand.className (operand : Operand) : String :=
  match operand.type, operand.items with
  | some type, _ => type.className
  | none, item :: _ => item.plainClassName
  | none, [] => ElementType.object.className

def toOperand (value : Value) : Except Crash Operand :=
  match value with
  | int _ | float _ | complex _ _ => .ok ⟨none, [], [value]⟩
  | array element shape items _ => .ok ⟨some element, shape, items⟩
  | list _ | tuple _ =>
    match value.toArray with
    | .ok (array element shape items _) => .ok ⟨some element, shape, items⟩
    | .ok other => .ok ⟨some .object, [], [other]⟩
    | .error crash => .error crash
  | value => .ok ⟨some (ElementType.ofLeaf value), [], [value.plain]⟩

inductive Operation where
  | numbers (format : BinaryFormat)
  | texts
  | objects

def Operand.format (a b : Operand) : BinaryFormat :=
  match a.type, b.type, a.items.head?.bind number?, b.items.head?.bind number? with
  | some type, none, _, some number => type.formatBeside number
  | none, some type, some number, _ => type.formatBeside number
  | _, _, _, _ => .double

def Operand.operation? (a b : Operand) : Option Operation :=
  if a.type = some .object ∨ b.type = some .object then some .objects
  else
    match (a.type.map ElementType.isText).getD false, (b.type.map ElementType.isText).getD false with
    | true, true => some .texts
    | false, false => some (.numbers (a.format b))
    | _, _ => none

def numbersHold (format : BinaryFormat) (comparison : Comparison) (a b : Value) :
    Except Crash Bool :=
  match a.number?, b.number? with
  | some x, some y =>
    match x.holdsIn? format comparison y with
    | some result => .ok result
    | none => .error .integerTooLarge
  | _, _ => .ok false

def machineHolds (comparison : Comparison) (a b : Value) : Except Crash Bool := do
  let x ← a.toOperand
  let y ← b.toOperand
  match x.operation? y with
  | some (.numbers format) => numbersHold format comparison a b
  | some _ => plainHolds comparison a.plain b
  | none =>
    if comparison = .equal then return false
    else throw (.noOperation comparison x.className y.className)

def scalarsHold (comparison : Comparison) (a b : Value) : Except Crash Bool :=
  if a.isMachineNumber then machineHolds comparison a b
  else if b.isMachineNumber then machineHolds comparison.flip b a
  else plainHolds comparison a b

def Operation.holds (comparison : Comparison) (a b : Value) : Operation → Except Crash Bool
  | numbers format => numbersHold format comparison a b
  | texts => plainHolds comparison a b
  | objects => scalarsHold comparison a b

def elementwise (comparison : Comparison) (a b : Value) : Except Crash Value := do
  let x ← a.toOperand
  let y ← b.toOperand
  let operation := x.operation? y
  if operation.isNone ∧ comparison ≠ .equal then
    throw (.noOperation comparison x.className y.className)
  match x.shape.join? y.shape with
  | none => throw (.shapesDiffer x.shape y.shape)
  | some shape =>
    let pairs := (Shape.spreadTo shape x.shape x.items).zip (Shape.spreadTo shape y.shape y.items)
    let results ← pairs.mapM fun (a, b) =>
      match operation with
      | none => .ok (bool false)
      | some operation => bool <$> operation.holds comparison a b
    return array .bool shape results {}

def isElementwise (a b : Value) : Bool := a.isArray || b.isArray || b.isSequence

/-- Equality of a machine value with another value. A machine number gives a machine truth value beside
numbers and texts, and meets all else as the plain number it stands for. -/
def machineEquality (a b : Value) : Except Crash Value :=
  if isElementwise a b then elementwise .equal a b
  else
    match b, b.number? with
    | text _, _ => machineBool <$> machineHolds .equal a b
    | _, some _ => machineBool <$> machineHolds .equal a b
    | _, none => .ok (bool (plainEquals a.plain b))

/-- Equality of values that are not both collections of one kind. A plain complex number takes a
machine number of double precision for a plain one. -/
def unlikeEquality (a b : Value) : Except Crash Value :=
  match a, b with
  | complex _ _, machineFloat .double x => .ok (bool (plainEquals a (float x)))
  | a, b =>
    if a.isMachine then machineEquality a b
    else if b.isMachine then machineEquality b a
    else .ok (bool (plainEquals a b))

mutual

def equality : Value → Value → Except Crash Value
  | list as, list bs =>
    if as.length = bs.length then bool <$> equalAll as bs else .ok (bool false)
  | tuple as, tuple bs => bool <$> equalAll as bs
  | a, b => unlikeEquality a b

def equalAll : List Value → List Value → Except Crash Bool
  | [], [] => .ok true
  | a :: as, b :: bs => do
    let agree ← if a.isSame b then .ok true else equality a b >>= truth
    if agree then equalAll as bs else return false
  | _, _ => .ok false

end

def unlikeGreater (a b : Value) : Except Crash Bool :=
  if a.isMachine then
    if isElementwise a b then elementwise .greater a b >>= truth else machineHolds .greater a b
  else if b.isMachine then
    if isElementwise b a then elementwise .less b a >>= truth else machineHolds .less b a
  else plainHolds .greater a b

mutual

def greater : Value → Value → Except Crash Bool
  | list as, list bs => greaterAll as bs
  | tuple as, tuple bs => greaterAll as bs
  | a, b => unlikeGreater a b

def greaterAll : List Value → List Value → Except Crash Bool
  | [], _ => .ok false
  | _ :: _, [] => .ok true
  | a :: as, b :: bs => do
    let agree ← if a.isSame b then .ok true else equality a b >>= truth
    if agree then greaterAll as bs else greater a b

end

end Value

end HostLisp
