import HostLisp.Evaluator
import HostLisp.Proofs.Naturality
import HostLisp.Proofs.Shapes

/-!
What a call is given does not depend on names. Special forms read the expressions they are given, host
functions convert the values they are given; both commute with renaming, in what they accept and in
what they say about what they refuse.
-/

namespace HostLisp

instance : SMul Renaming ConversionError := ⟨fun _ error => error⟩

namespace Quantity

instance : SMul Renaming Quantity where
  smul f
    | whole n => whole n
    | floating x => floating (f • x)

variable (f : Renaming)

@[simp] theorem smul_whole (n : Int) : f • whole n = whole n := rfl

@[simp] theorem smul_floating (x : Floating) : f • floating x = floating (f • x) := rfl

@[simp] theorem toInt?_smul (quantity : Quantity) : (f • quantity).toInt? = quantity.toInt? := by
  cases quantity <;> simp [toInt?]

@[simp] theorem text_smul (quantity : Quantity) : (f • quantity).text = quantity.text := by
  cases quantity <;> simp [text]

theorem toFloating_smul (quantity : Quantity) : (f • quantity).toFloating = f • quantity.toFloating := by
  cases quantity with
  | whole n =>
    simp only [smul_whole, toFloating]
    split
    · rfl
    · simp
  | floating x => rfl

end Quantity

namespace Value

variable (f : Renaming)

@[simp] theorem quantity?_smul (value : Value) : (f • value).quantity? = f • value.quantity? := by
  cases value <;> rfl

@[simp] theorem items?_smul (value : Value) : (f • value).items? = f • value.items? := by
  cases value <;> simp [items?]

theorem readFloat_smul (value : Value) : (f • value).readFloat = f • value.readFloat := by
  cases value with
  | text s =>
    have fixed := Floating.smul_ofText? f s
    simp only [smul_text, readFloat]
    cases read : Floating.ofText? s with
    | none => rfl
    | some x =>
      rw [read] at fixed
      exact congrArg Except.ok (Option.some.inj fixed).symm
  | bool _ | machineBool _ | array _ _ _ _ => rfl
  | int n => exact Quantity.toFloating_smul f (.whole n)
  | machineInt _ n => exact Quantity.toFloating_smul f (.whole n)
  | code expr => exact congrArg (Except.error ∘ Crash.notFloat) (Expr.kind_smul f expr)
  | _ => rfl

@[simp] theorem expr?_smul (value : Value) : (f • value).expr? = f • value.expr? := by
  cases value <;> rfl

theorem asSequence?_smul (value : Value) (spelling : TypeExpr.SequenceForm) :
    (f • value).asSequence? spelling = f • value.asSequence? spelling := by
  cases spelling with
  | abstractSequence => cases value <;> rfl
  | _ =>
    simp only [asSequence?, items?_smul]
    cases value.items? with
    | none => rfl
    | some items => exact congrArg some (smul_list f items).symm

theorem refuse_smul {α : Type} (value : Value) (type : TypeExpr) :
    (f • value).refuse (α := α) type = value.refuse type := by
  rw [refuse, kindOf_smul, refuse]

theorem toFloating_smul (value : Value) (type : TypeExpr) :
    (f • value).toFloating type = f • value.toFloating type := by
  unfold toFloating toQuantity
  rw [quantity?_smul, refuse_smul]
  cases value.quantity? with
  | none => rfl
  | some quantity =>
    change (f • quantity).toFloating.mapError _ = f • quantity.toFloating.mapError _
    rw [Quantity.toFloating_smul]
    cases quantity.toFloating <;> rfl

theorem toMachineInt_smul (value : Value) (width : IntegerType) :
    (f • value).toMachineInt width = f • value.toMachineInt width := by
  have exact : (f • value).quantity?.bind Quantity.toInt? = value.quantity?.bind Quantity.toInt? := by
    rw [quantity?_smul]
    cases value.quantity? <;> simp
  unfold toMachineInt
  rw [exact, refuse_smul]
  cases value.quantity?.bind Quantity.toInt? with
  | none => rfl
  | some n =>
    simp only
    split_ifs <;> rfl

theorem exceeds_smul (format : BinaryFormat) (x : Floating) :
    exceeds format (f • x) = exceeds format x := by
  simp [exceeds]

theorem toMachineFloat_smul (value : Value) (width : RealType) :
    (f • value).toMachineFloat width = f • value.toMachineFloat width := by
  unfold toMachineFloat toQuantity
  rw [quantity?_smul, refuse_smul]
  cases value.quantity? with
  | none => rfl
  | some quantity =>
    simp only [Option.smul_some, bind, Except.bind, Quantity.toFloating_smul, Quantity.text_smul]
    cases quantity.toFloating with
    | error crash => rfl
    | ok x =>
      simp only [Except.smul_ok, Except.mapError, exceeds_smul, Floating.cast_smul]
      split_ifs <;> rfl

theorem keptAs_smul (value : Value) (target : Kind) :
    (if (f • value).kindOf = target then .ok (f • value) else (f • value).refuse (.kind target) :
      Except ConversionError Value) =
    f • if value.kindOf = target then .ok value else value.refuse (.kind target) := by
  rw [kindOf_smul, refuse_smul]
  split_ifs <;> rfl

theorem itemsAs_smul (value : Value) (make : List Value → Value)
    (natural : ∀ items, make (f • items) = f • make items)
    (change : List Value → Except ConversionError (List Value))
    (changes : ∀ items, change (f • items) = f • change items) (type : TypeExpr) :
    (match (f • value).items? with
    | some items => make <$> change items
    | none => (f • value).refuse type) =
    f • match value.items? with
    | some items => make <$> change items
    | none => value.refuse type := by
  rw [items?_smul, refuse_smul]
  cases value.items? with
  | none => rfl
  | some items =>
    exact (congrArg (make <$> ·) (changes items)).trans (Except.smul_map f make natural _)

theorem toKind_smul (value : Value) (target : Kind) :
    (f • value).toKind target = f • value.toKind target := by
  cases target with
  | bool | machineBool =>
    cases value with
    | code expr => cases expr <;> rfl
    | native function => exact keptAs_smul f (.native function) _
    | _ => rfl
  | machineInt width => exact toMachineInt_smul f value width
  | machineFloat width => exact toMachineFloat_smul f value width
  | int =>
    have exact : (f • value).quantity?.bind Quantity.toInt? = value.quantity?.bind Quantity.toInt? := by
      rw [quantity?_smul]
      cases value.quantity? <;> simp
    simp only [toKind]
    rw [exact, refuse_smul]
    cases value.quantity?.bind Quantity.toInt? <;> rfl
  | float =>
    simp only [toKind]
    rw [toFloating_smul]
    exact Except.smul_map f float (fun x => rfl) _
  | complex =>
    have reals : (complex · (.finite 0)) <$> (f • value).toFloating (.kind .complex) =
        f • ((complex · (.finite 0)) <$> value.toFloating (.kind .complex)) := by
      rw [toFloating_smul]
      exact Except.smul_map f (complex · (.finite 0)) (fun x => rfl) _
    cases value with
    | complex re im => rfl
    | _ => exact reals
  | array =>
    have same := congrArg (Except.mapError ConversionError.crashed) (toArray_smul f value)
    have passed : (f • value.toArray).mapError ConversionError.crashed =
        f • value.toArray.mapError ConversionError.crashed := by
      cases value.toArray <;> rfl
    cases value with
    | list items | tuple items | array element shape items stamp => exact same.trans passed
    | _ => exact refuse_smul f _ _
  | list =>
    exact itemsAs_smul f value list (fun items => (smul_list f items).symm) .ok (fun _ => rfl) _
  | tuple =>
    exact itemsAs_smul f value tuple (fun items => (smul_tuple f items).symm) .ok (fun _ => rfl) _
  | _ => exact keptAs_smul f value _

theorem acceptedAs_smul (value : Value) {accepts : Value → Bool}
    (natural : accepts (f • value) = accepts value) (type : TypeExpr) :
    (if accepts (f • value) then .ok (f • value) else (f • value).refuse type :
      Except ConversionError Value) =
    f • if accepts value then .ok value else value.refuse type := by
  rw [natural, refuse_smul]
  split_ifs <;> rfl

mutual

theorem convert_smul (f : Renaming) : ∀ (type : TypeExpr) (value : Value),
    convert type (f • value) = f • convert type value
  | .unannotated, _ | .anything, _ | .object, _ | .variable _, _ => by
    simp only [convert, Except.smul_ok]
  | .none, value => by
    cases value with
    | code expr => cases expr <;> rfl
    | _ => rfl
  | .kind target, value => toKind_smul f value target
  | .expression, value => by
    cases value <;> rfl
  | .sequence spelling, value => by
    simp only [convert, asSequence?_smul, refuse_smul]
    cases value.asSequence? spelling <;> rfl
  | .sequenceOf spelling [], value => by
    simp only [convert]
    exact itemsAs_smul f value list (fun items => (smul_list f items).symm) .ok (fun _ => rfl) _
  | .sequenceOf spelling (element :: others), value => by
    simp only [convert]
    exact itemsAs_smul f value list (fun items => (smul_list f items).symm) _
      (fun items => Except.mapM_smul f fun item _ => convert_smul f element item) _
  | .tuple spelling, value => by
    simp only [convert]
    exact itemsAs_smul f value tuple (fun items => (smul_tuple f items).symm) .ok (fun _ => rfl) _
  | .tupleOf spelling element, value => by
    simp only [convert]
    exact itemsAs_smul f value tuple (fun items => (smul_tuple f items).symm) _
      (fun items => Except.mapM_smul f fun item _ => convert_smul f element item) _
  | .tupleExactly spelling [], value => by
    simp only [convert]
    exact itemsAs_smul f value tuple (fun items => (smul_tuple f items).symm) .ok (fun _ => rfl) _
  | .tupleExactly spelling (first :: others), value => by
    simp only [convert]
    rw [items?_smul, refuse_smul]
    cases value.items? with
    | none => rfl
    | some items =>
      simp only [Option.smul_some, HostLisp.length_smul]
      split_ifs
      · rw [convertEach_smul f (first :: others) items]
        exact Except.smul_map f tuple (fun items => (smul_tuple f items).symm) _
      · rfl
  | .union spelling members, value => by
    simp only [convert]
    rw [convertFirst_smul f members value, refuse_smul]
    cases convertFirst members value with
    | error crash => rfl
    | ok first => cases first <;> rfl
  | .callable spelling, value => by
    simp only [convert]
    exact acceptedAs_smul f value (isInvokable_smul f value) _
  | .callableOf arguments result, value => by
    simp only [convert]
    exact acceptedAs_smul f value (isInvokable_smul f value) _
  | .generic origin arguments, value => by
    simp only [convert]
    rw [kindOf_smul, refuse_smul]
    split_ifs <;> rfl
  | .literal options, value => by
    simp only [convert]
    rw [refuse_smul]
    rfl
  | .annotated type note, value => by
    simp only [convert]
    rw [refuse_smul]
    rfl

theorem convertEach_smul (f : Renaming) : ∀ (types : List TypeExpr) (values : List Value),
    convertEach types (f • values) = f • convertEach types values
  | [], _ => by
    simp only [convertEach]
    rfl
  | _ :: _, [] => by
    simp only [convertEach]
    rfl
  | type :: types, value :: values => by
    simp only [smul_cons, convertEach]
    rw [convert_smul f type value, convertEach_smul f types values]
    cases convert type value with
    | error error => rfl
    | ok first => cases convertEach types values <;> rfl

theorem convertFirst_smul (f : Renaming) : ∀ (types : List TypeExpr) (value : Value),
    convertFirst types (f • value) = f • convertFirst types value
  | [], _ => by
    simp only [convertFirst]
    rfl
  | type :: types, value => by
    simp only [convertFirst]
    rw [convert_smul f type value, convertFirst_smul f types value]
    cases convert type value with
    | ok result => rfl
    | error error => cases error <;> rfl

end

end Value

/-! ### Forms -/

instance : SMul Renaming ShapeError where
  smul f
    | .stepNotCall operator position step => .stepNotCall operator position (f • step)
    | error => error

instance : SMul Renaming Step := ⟨fun f step => ⟨f • step.head, f • step.arguments⟩⟩

@[simp] theorem Step.smul_mk (f : Renaming) (head : Expr) (arguments : List Expr) :
    f • (⟨head, arguments⟩ : Step) = ⟨f • head, f • arguments⟩ := rfl

instance : MulAction Renaming Step where
  one_smul step := congrArg₂ Step.mk (one_smul _ step.head) (one_smul _ step.arguments)
  mul_smul f g step := congrArg₂ Step.mk (mul_smul f g step.head) (mul_smul f g step.arguments)

namespace Action

instance : SMul Renaming Action where
  smul f
    | sequence body => sequence (f • body)
    | block body => block (f • body)
    | bind target name value => bind target name (f • value)
    | choose clauses => choose (f • clauses)
    | close params body => close params (f • body)
    | define name params body => define name params (f • body)
    | thread splice start steps => thread splice (f • start) (f • steps)
    | quote body => quote (f • body)
    | eval body => eval (f • body)
    | document name => document name
    | dumpScope => dumpScope
    | inspect exprs => inspect (f • exprs)

variable (f : Renaming)

theorem readBinding_smul (target : Target) (operator : String) (arguments : List Expr) :
    readBinding target operator (f • arguments) = f • readBinding target operator arguments := by
  match arguments with
  | [name, value] => cases name <;> rfl
  | [] => rfl
  | [name] | name :: _ :: _ :: _ => cases name <;> rfl

theorem readClause_smul (expr : Expr) : readClause (f • expr) = f • readClause expr := by
  cases expr with
  | list items =>
    match items with
    | [test, action] => rfl
    | [] | [_] | _ :: _ :: _ :: _ => rfl
  | _ => rfl

theorem readParam_smul (expr : Expr) : readParam (f • expr) = readParam expr := by
  cases expr <;> rfl

theorem readParams_smul (expr : Expr) : readParams (f • expr) = readParams expr := by
  cases expr with
  | vector items =>
    simp only [Expr.smul_vector, readParams, smul_eq_map, List.mapM_map, Function.comp_def,
      readParam_smul]
  | _ => rfl

theorem smul_of_readParams {expr : Expr} {error : ShapeError} (wrong : readParams expr = .error error) :
    f • error = error := by
  cases expr with
  | vector items =>
    obtain ⟨item, -, refused⟩ := Except.mapM_eq_error wrong
    cases item <;> cases refused <;> rfl
  | _ =>
    cases wrong
    rfl

theorem readLambda_smul (arguments : List Expr) :
    readLambda (f • arguments) = f • readLambda arguments := by
  match arguments with
  | [] | [_] => rfl
  | params :: first :: body =>
    change readLambda (f • params :: f • first :: f • body) = _
    rw [readLambda, readParams_smul, readLambda]
    cases wrong : readParams params with
    | error error => exact congrArg Except.error (smul_of_readParams f wrong).symm
    | ok names => rfl

theorem readDefine_smul (arguments : List Expr) :
    readDefine (f • arguments) = f • readDefine arguments := by
  match arguments with
  | [] => rfl
  | [name] | [name, _] => cases name <;> rfl
  | name :: params :: first :: body =>
    cases name with
    | symbol name =>
      change readDefine (.symbol name :: f • params :: f • first :: f • body) = _
      rw [readDefine, readParams_smul, readDefine]
      cases wrong : readParams params with
      | error error => exact congrArg Except.error (smul_of_readParams f wrong).symm
      | ok names => rfl
    | _ => rfl

theorem readSteps_smul (operator : String) (position : Nat) (exprs : List Expr) :
    readSteps operator position (f • exprs) = f • readSteps operator position exprs := by
  induction exprs generalizing position with
  | nil => rfl
  | cons expr exprs ih =>
    cases expr with
    | list items =>
      cases items with
      | nil => rfl
      | cons head arguments =>
        simp only [smul_cons, Expr.smul_list, readSteps]
        rw [ih]
        cases readSteps operator (position + 1) exprs <;> rfl
    | _ => rfl

theorem readThread_smul (splice : Splice) (operator : String) (arguments : List Expr) :
    readThread splice operator (f • arguments) = f • readThread splice operator arguments := by
  cases arguments with
  | nil => rfl
  | cons start others =>
    rw [smul_cons, readThread, readSteps_smul, readThread]
    cases readSteps operator 1 others <;> rfl

theorem readDocument_smul (arguments : List Expr) :
    readDocument (f • arguments) = f • readDocument arguments := by
  match arguments with
  | [] => rfl
  | [name] => cases name <;> rfl
  | name :: other :: others =>
    have counted : readDocument (f • name :: f • other :: f • others) =
        .error (.notOneArgument .doc (f • (name :: other :: others)).length) := by
      cases name <;> rfl
    rw [smul_cons, smul_cons, counted, length_smul]
    cases name <;> rfl

theorem read_smul (form : Form) (operator : String) (arguments : List Expr) :
    read form operator (f • arguments) = f • read form operator arguments := by
  cases form with
  | label => exact readBinding_smul f .current operator arguments
  | setGlobal => exact readBinding_smul f .root operator arguments
  | cond =>
    change choose <$> (f • arguments).mapM readClause = f • (choose <$> arguments.mapM readClause)
    rw [Except.mapM_smul f fun expr _ => readClause_smul f expr]
    exact Except.smul_map f choose (fun _ => rfl) _
  | lambda => exact readLambda_smul f arguments
  | define => exact readDefine_smul f arguments
  | threadFirst => exact readThread_smul f .first operator arguments
  | threadLast => exact readThread_smul f .last operator arguments
  | quote =>
    match arguments with
    | [] | [_] => rfl
    | _ :: _ :: others =>
      exact congrArg (fun count => Except.error (ShapeError.notOneArgument .quote (count + 2)))
        (length_smul f others)
  | eval =>
    match arguments with
    | [] | [_] => rfl
    | _ :: _ :: others =>
      exact congrArg (fun count => Except.error (ShapeError.notOneArgument .eval (count + 2)))
        (length_smul f others)
  | doc => exact readDocument_smul f arguments
  | _ => rfl

end Action

/-! ### Arguments of a given form -/

section

variable (f : Renaming)

theorem smul_eq_nil_iff {α : Type} [SMul Renaming α] (items : List α) : f • items = [] ↔ items = [] :=
  List.map_eq_nil_iff

theorem smul_eq_cons_iff {α : Type} [SMul Renaming α] (items : List α) (b : α) (bs : List α) :
    f • items = b :: bs ↔ ∃ a as, items = a :: as ∧ f • a = b ∧ f • as = bs :=
  List.map_eq_cons_iff

namespace Value

variable (value : Value)

theorem smul_eq_nil_iff : f • value = nil ↔ value = nil := by cases value <;> simp

theorem smul_eq_bool_iff (b : Bool) : f • value = bool b ↔ value = bool b := by cases value <;> simp

theorem smul_eq_int_iff (n : Int) : f • value = int n ↔ value = int n := by cases value <;> simp

theorem smul_eq_machineInt_iff (type : IntegerType) (n : Int) :
    f • value = machineInt type n ↔ value = machineInt type n := by cases value <;> simp

theorem smul_eq_text_iff (s : String) : f • value = text s ↔ value = text s := by cases value <;> simp

theorem smul_eq_float_iff (y : Floating) : f • value = float y ↔ ∃ x, value = float x ∧ f • x = y := by
  cases value <;> simp

theorem smul_eq_list_iff (others : List Value) :
    f • value = list others ↔ ∃ items, value = list items ∧ f • items = others := by
  cases value <;> simp

theorem smul_eq_tuple_iff (others : List Value) :
    f • value = tuple others ↔ ∃ items, value = tuple items ∧ f • items = others := by
  cases value <;> simp

theorem smul_eq_code_iff (other : Expr) :
    f • value = code other ↔ ∃ expr, value = code expr ∧ f • expr = other := by
  cases value <;> simp

theorem smul_eq_array_iff (element : ElementType) (shape : Shape) (others : List Value) (stamp : Stamp) :
    f • value = array element shape others stamp ↔
      ∃ items old, value = array element shape items old ∧ f • items = others ∧ f.object old = stamp := by
  cases value with
  | array element' shape' items old =>
    simp only [smul_array, array.injEq]
    constructor
    · rintro ⟨rfl, rfl, rfl, rfl⟩
      exact ⟨items, old, ⟨rfl, rfl, rfl, rfl⟩, rfl, rfl⟩
    · rintro ⟨_, _, ⟨rfl, rfl, rfl, rfl⟩, rfl, rfl⟩
      exact ⟨rfl, rfl, rfl, rfl⟩
  | _ => simp

theorem smul_eq_scope_iff (id : ScopeId) :
    f • value = scope id ↔ ∃ old, value = scope old ∧ f.scope old = id := by
  cases value <;> simp

end Value

end

/-! ### Functions -/

/-- What ends a computation tells no names: texts are written before. -/
instance : SMul Renaming Fault := ⟨fun _ fault => fault⟩

namespace Window

variable (f : Renaming) (window : Window)

theorem convertFrom_smul (name : String) (index : Nat) (arguments : List Value) :
    window.convertFrom name index (f • arguments) = f • window.convertFrom name index arguments := by
  induction arguments generalizing index with
  | nil => rfl
  | cons value values ih =>
    rw [smul_cons, convertFrom, Value.convert_smul, ih, convertFrom]
    cases Value.convert (window.typeAt index) value with
    | error error => cases error <;> rfl
    | ok converted => cases window.convertFrom name (index + 1) values <;> rfl

end Window

section Option

variable {α β : Type} [SMul Renaming α] [SMul Renaming β] (f : Renaming)

theorem Option.mapM_smul {run : α → Option β} (natural : ∀ item, run (f • item) = f • run item)
    (items : List α) : (f • items).mapM run = f • items.mapM run := by
  induction items with
  | nil => rfl
  | cons item items ih =>
    rw [smul_cons, List.mapM_cons, natural, ih, List.mapM_cons]
    cases run item with
    | none => rfl
    | some found => cases items.mapM run <;> rfl

theorem Option.mapM_unnamed {γ : Type} {run : α → Option γ} (natural : ∀ item, run (f • item) = run item)
    (items : List α) : (f • items).mapM run = items.mapM run := by
  rw [smul_eq_map, List.mapM_map]
  exact congrArg (items.mapM ·) (funext natural)

end Option

namespace Value

variable (f : Renaming) (value : Value)

@[simp] theorem name?_smul : (f • value).name? = value.name? := by cases value <;> rfl

theorem itemsOf?_smul {α : Type} [SMul Renaming α] {sort : Value → Option α}
    (natural : ∀ item, sort (f • item) = f • sort item) :
    (f • value).itemsOf? sort = f • value.itemsOf? sort := by
  rw [itemsOf?, items?_smul, itemsOf?]
  cases value.items? with
  | none => rfl
  | some items => exact Option.mapM_smul f natural items

theorem itemsOf?_unnamed {α : Type} {sort : Value → Option α}
    (natural : ∀ item, sort (f • item) = sort item) :
    (f • value).itemsOf? sort = value.itemsOf? sort := by
  rw [itemsOf?, items?_smul, itemsOf?]
  cases value.items? with
  | none => rfl
  | some items => exact Option.mapM_unnamed f natural items

@[simp] theorem names?_smul : (f • value).names? = value.names? := by
  have listed := itemsOf?_unnamed f value (name?_smul f)
  cases value with
  | text s => rfl
  | _ => exact listed

theorem around?_smul : (f • value).around? = value.around?.map (Option.map f.scope) := by
  cases value <;> rfl

@[simp] theorem type?_smul : (f • value).type? = value.type? := by cases value <;> rfl

@[simp] theorem ownName?_smul : (f • value).ownName? = value.ownName? := by cases value <;> rfl

theorem codeCall?_smul (arguments : List Value) :
    codeCall? (f • arguments) =
      (codeCall? arguments).map fun call => (f.scope call.1, call.2.1, f • call.2.2) := by
  fun_cases codeCall? arguments
  case case1 id name items =>
    simp only [smul_cons, HostLisp.smul_nil, smul_scope, smul_text, smul_list, codeCall?,
      Option.mapM_smul f (expr?_smul f) items]
    cases items.mapM expr? <;> rfl
  case case2 unfit =>
    rw [codeCall?.eq_2]
    · rfl
    · intro id name items same
      simp only [smul_eq_cons_iff, HostLisp.smul_eq_nil_iff, smul_eq_scope_iff, smul_eq_text_iff,
        smul_eq_list_iff] at same
      obtain ⟨_, _, rfl, ⟨_, rfl, -⟩, _, _, rfl, rfl, _, _, rfl, ⟨_, rfl, -⟩, rfl⟩ := same
      exact unfit _ _ _ rfl

theorem listed?_smul (arguments : List Value) : listed? (f • arguments) = f • listed? arguments := by
  fun_cases listed? arguments
  case case1 place name exprs =>
    simp only [smul_cons, HostLisp.smul_nil, listed?, items?_smul]
    cases exprs.items? with
    | none => rfl
    | some items => simp
  case case2 unfit =>
    rw [listed?.eq_2]
    · rfl
    · intro place name exprs same
      simp only [smul_eq_cons_iff, HostLisp.smul_eq_nil_iff] at same
      obtain ⟨_, _, rfl, -, _, _, rfl, -, _, _, rfl, -, rfl⟩ := same
      exact unfit _ _ _ rfl

end Value

end HostLisp
