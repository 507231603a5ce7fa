import HostLisp.Host.Run
import HostLisp.Proofs.Anonymity

/-!
What values are does not depend on names. Arrays and comparisons commute with renaming: they give of
renamed values what they give of the values themselves, renamed in the same way.
-/

namespace HostLisp

instance : SMul Renaming Crash := ⟨fun _ crash => crash⟩

@[simp] theorem Crash.smul_eq (f : Renaming) (crash : Crash) : f • crash = crash := rfl

section Except

variable {ε α β : Type} [SMul Renaming ε] [SMul Renaming α] [SMul Renaming β] (f : Renaming)

instance : SMul Renaming (Except ε α) where
  smul f
    | .ok value => .ok (f • value)
    | .error error => .error (f • error)

@[simp] theorem Except.smul_ok (value : α) : f • (.ok value : Except ε α) = .ok (f • value) := rfl

@[simp] theorem Except.smul_error (error : ε) : f • (.error error : Except ε α) = .error (f • error) :=
  rfl

theorem Except.smul_map (change : α → β) (natural : ∀ value, change (f • value) = f • change value)
    (result : Except ε α) : change <$> (f • result) = f • (change <$> result) := by
  cases result with
  | ok value => exact congrArg Except.ok (natural value)
  | error error => rfl

theorem Except.map_unnamed {γ : Type} {make : γ → α} (unnamed : ∀ x, f • make x = make x)
    (result : Except Crash γ) : make <$> result = f • (make <$> result) := by
  cases result with
  | ok x => exact congrArg Except.ok (unnamed x).symm
  | error crash => rfl

theorem Except.mapM_natural {γ : Type} {run other : γ → Except ε α} {items : List γ}
    (natural : ∀ item ∈ items, other item = f • run item) : items.mapM other = f • items.mapM run := by
  induction items with
  | nil => rfl
  | cons item items ih =>
    rw [List.mapM_cons, List.mapM_cons, natural item List.mem_cons_self,
      ih fun later found => natural later (List.mem_cons_of_mem item found)]
    cases run item with
    | error error => rfl
    | ok value => cases items.mapM run <;> rfl

theorem Except.mapM_smul {run : α → Except ε β} {items : List α}
    (natural : ∀ item ∈ items, run (f • item) = f • run item) :
    (f • items).mapM run = f • items.mapM run := by
  rw [smul_eq_map, List.mapM_map]
  exact Except.mapM_natural f natural

end Except

namespace Number

instance : SMul Renaming Number where
  smul f
    | exact n => exact n
    | floating x => floating (f • x)
    | complex re im => complex (f • re) (f • im)

variable (f : Renaming)

@[simp] theorem smul_exact (n : Int) : f • exact n = exact n := rfl

@[simp] theorem smul_floating (x : Floating) : f • floating x = floating (f • x) := rfl

@[simp] theorem smul_complex (re im : Floating) : f • complex re im = complex (f • re) (f • im) := rfl

@[simp] theorem smul_ofBool (b : Bool) : f • ofBool b = ofBool b := rfl

@[simp] theorem eq_smul_smul (x y : Number) : (f • x).eq (f • y) = x.eq y := by
  cases x <;> cases y <;> simp [eq]

@[simp] theorem lt?_smul_smul (x y : Number) : (f • x).lt? (f • y) = x.lt? y := by
  cases x <;> cases y <;> simp [lt?]

@[simp] theorem holds?_smul_smul (comparison : Comparison) (x y : Number) :
    (f • x).holds? comparison (f • y) = x.holds? comparison y := by
  cases comparison <;> simp [holds?]

theorem parts?_smul (format : BinaryFormat) (x : Number) :
    (f • x).parts? format = (x.parts? format).map fun part => (f • part.1, f • part.2) := by
  cases x with
  | exact n =>
    rw [smul_exact, parts?]
    split
    · rfl
    · simp [← Floating.cast_smul]
  | floating x => simp [parts?]
  | complex re im => simp [parts?]

@[simp] theorem before_smul_smul (x y : Floating × Floating) :
    before (f • x.1, f • x.2) (f • y.1, f • y.2) = before x y := by simp [before]

theorem parts?_smul_smul (format : BinaryFormat)
    (judge : Floating × Floating → Floating × Floating → Bool)
    (natural : ∀ x y : Floating × Floating, judge (f • x.1, f • x.2) (f • y.1, f • y.2) = judge x y)
    (x y : Number) :
    (do
      let a ← (f • x).parts? format
      let b ← (f • y).parts? format
      return judge a b) =
    (do
      let a ← x.parts? format
      let b ← y.parts? format
      return judge a b) := by
  rw [parts?_smul, parts?_smul]
  cases x.parts? format with
  | none => rfl
  | some a =>
    cases y.parts? format with
    | none => rfl
    | some b => exact congrArg some (natural a b)

@[simp] theorem holdsIn?_smul_smul (format : BinaryFormat) (comparison : Comparison) (x y : Number) :
    (f • x).holdsIn? format comparison (f • y) = x.holdsIn? format comparison y := by
  cases x with
  | exact m =>
    cases y with
    | exact n => rfl
    | floating y =>
      exact parts?_smul_smul f format _ (fun a b => by cases comparison <;> simp) (exact m) (floating y)
    | complex re im =>
      exact parts?_smul_smul f format _ (fun a b => by cases comparison <;> simp) (exact m)
        (complex re im)
  | floating x =>
    exact parts?_smul_smul f format _ (fun a b => by cases comparison <;> simp) (floating x) y
  | complex re im =>
    exact parts?_smul_smul f format _ (fun a b => by cases comparison <;> simp) (complex re im) y

end Number

mutual

theorem Expr.same_rename_rename (f : Renaming) : ∀ a b : Expr,
    (a.rename f).same (b.rename f) = a.same b
  | .symbol _, b | .number _ _, b | .string _, b => by cases b <;> rfl
  | .list as, b => by
    cases b with
    | list bs => exact Expr.sameAll_renameAll f as bs
    | _ => rfl
  | .vector as, b => by
    cases b with
    | vector bs => exact Expr.sameAll_renameAll f as bs
    | _ => rfl
  | .quote a, b => by
    cases b with
    | quote b => exact Expr.same_rename_rename f a b
    | _ => rfl
  | .program as, b => by
    cases b with
    | program bs => exact Expr.sameAll_renameAll f as bs
    | _ => rfl
  | .value _ stamp, b => by
    cases b with
    | value _ other => simp [Expr.rename, Expr.same]
    | _ => rfl

theorem Expr.sameAll_renameAll (f : Renaming) : ∀ as bs : List Expr,
    Expr.sameAll (Expr.renameAll f as) (Expr.renameAll f bs) = Expr.sameAll as bs
  | [], [] | [], _ :: _ | _ :: _, [] => rfl
  | a :: as, b :: bs =>
    congrArg₂ (· && ·) (Expr.same_rename_rename f a b) (Expr.sameAll_renameAll f as bs)

end

namespace Value

variable (f : Renaming)

@[simp] theorem number?_smul (value : Value) : (f • value).number? = f • value.number? := by
  cases value <;> rfl

@[simp] theorem plain_smul (value : Value) : (f • value).plain = f • value.plain := by
  cases value <;> rfl

@[simp] theorem isMachineNumber_smul (value : Value) :
    (f • value).isMachineNumber = value.isMachineNumber := by cases value <;> rfl

@[simp] theorem isMachine_smul (value : Value) : (f • value).isMachine = value.isMachine := by
  rw [isMachine, kindOf_smul, isMachine]

@[simp] theorem isSequence_smul (value : Value) : (f • value).isSequence = value.isSequence := by
  cases value <;> rfl

@[simp] theorem isArray_smul (value : Value) : (f • value).isArray = value.isArray := by
  rw [isArray, kindOf_smul, isArray]

@[simp] theorem isNonempty_smul (value : Value) : (f • value).isNonempty = value.isNonempty := by
  cases value <;> simp [isNonempty]

@[simp] theorem truth_smul (value : Value) : (f • value).truth = value.truth := by
  cases value with
  | array element shape items stamp =>
    match items with
    | [] | [item] => simp [truth]
    | _ :: _ :: _ => rfl
  | _ => simp [truth, isNonempty]

@[simp] theorem isSame_smul_smul (a b : Value) : (f • a).isSame (f • b) = a.isSame b := by
  cases a <;> cases b <;> simp [isSame]

theorem plainEquals_smul_smul (a b : Value) : (f • a).plainEquals (f • b) = a.plainEquals b := by
  cases a with
  | bool _ | int _ | float _ | complex _ _ | machineBool _ | machineInt _ _ | machineFloat _ _ =>
    cases b <;> simp [plainEquals, number?, Number.eq, Number.ofBool]
  | code a =>
    cases b with
    | code b => exact Expr.same_rename_rename f a b
    | _ => rfl
  | closure _ _ _ _ | operative _ _ _ | adapter _ _ _ _ | scope _ =>
    cases b <;> simp [plainEquals, number?]
  | _ => cases b <;> rfl

theorem plainOrder?_smul_smul (comparison : Comparison) (a b : Value) :
    plainOrder? comparison (f • a) (f • b) = plainOrder? comparison a b := by
  have numbers :
      (do
        let x ← (f • a).number?
        let y ← (f • b).number?
        x.holds? comparison y) =
      (do
        let x ← a.number?
        let y ← b.number?
        x.holds? comparison y) := by
    rw [number?_smul, number?_smul]
    cases a.number? <;> cases b.number? <;> simp
  cases a with
  | text s =>
    cases b with
    | text t => rfl
    | _ => exact numbers
  | _ => exact numbers

theorem plainHolds_smul_smul (comparison : Comparison) (a b : Value) :
    plainHolds comparison (f • a) (f • b) = plainHolds comparison a b := by
  rw [plainHolds, plainEquals_smul_smul, plainOrder?_smul_smul, kindOf_smul, kindOf_smul, plainHolds]

end Value

namespace ElementType

variable (f : Renaming)

@[simp] theorem floating_smul (value : Value) : floating (f • value) = f • floating value := by
  cases value with
  | bool b | machineBool b => cases b <;> rfl
  | int n | machineInt _ n => exact (Floating.smul_ofInt f n).symm
  | _ => first | rfl | exact (Floating.smul_invalid f).symm

theorem element_smul (element : ElementType) (value : Value) :
    element.element (f • value) = f • element.element value := by
  cases element with
  | real type => simp [ElementType.element]
  | text length => simp [ElementType.element]
  | complex => cases value <;> simp [ElementType.element, ← floating_smul]
  | _ => cases value <;> simp [ElementType.element]

end ElementType

mutual

theorem Value.extent_rename (f : Renaming) : ∀ value : Value, (value.rename f).extent = value.extent
  | .list items | .tuple items => congrArg Extent.ofItems (Value.extents_renameAll f items)
  | .array _ _ _ _ | .nil | .bool _ | .float _ | .int _ | .complex _ _ | .text _ | .dict
  | .machineBool _ | .machineInt _ _ | .machineFloat _ _ | .code _ | .closure _ _ _ _ | .form _
  | .operative _ _ _ | .native _ | .adapter _ _ _ _ | .kind _ | .scope _ | .picture _ _ _ => rfl

theorem Value.extents_renameAll (f : Renaming) : ∀ values : List Value,
    Value.extents (Value.renameAll f values) = Value.extents values
  | [] => rfl
  | value :: values =>
    congrArg₂ List.cons (Value.extent_rename f value) (Value.extents_renameAll f values)

end

mutual

theorem Value.leaves_rename (f : Renaming) : ∀ value : Value,
    (value.rename f).leaves = f • value.leaves
  | .list items | .tuple items => Value.leavesAll_renameAll f items
  | .array _ _ items _ => Value.renameAll_eq f items
  | .nil | .bool _ | .float _ | .int _ | .complex _ _ | .text _ | .dict | .machineBool _
  | .machineInt _ _ | .machineFloat _ _ | .code _ | .closure _ _ _ _ | .form _ | .operative _ _ _
  | .native _ | .adapter _ _ _ _ | .kind _ | .scope _ | .picture _ _ _ => rfl

theorem Value.leavesAll_renameAll (f : Renaming) : ∀ values : List Value,
    Value.leavesAll (Value.renameAll f values) = f • Value.leavesAll values
  | [] => rfl
  | value :: values => by
    rw [Value.leavesAll, smul_append, ← Value.leaves_rename f value,
      ← Value.leavesAll_renameAll f values]
    rfl

end

mutual

theorem Value.elementTypes_rename (f : Renaming) : ∀ value : Value,
    (value.rename f).elementTypes = value.elementTypes
  | .list items | .tuple items => Value.elementTypesAll_renameAll f items
  | .array _ _ _ _ | .nil | .bool _ | .float _ | .int _ | .complex _ _ | .text _ | .dict
  | .machineBool _ | .machineInt _ _ | .machineFloat _ _ | .code _ | .closure _ _ _ _ | .form _
  | .operative _ _ _ | .native _ | .adapter _ _ _ _ | .kind _ | .scope _ | .picture _ _ _ => rfl

theorem Value.elementTypesAll_renameAll (f : Renaming) : ∀ values : List Value,
    Value.elementTypesAll (Value.renameAll f values) = Value.elementTypesAll values
  | [] => rfl
  | value :: values =>
    congrArg₂ (· ++ ·) (Value.elementTypes_rename f value) (Value.elementTypesAll_renameAll f values)

end

namespace Value

variable (f : Renaming)

@[simp] theorem extent_smul (value : Value) : (f • value).extent = value.extent := extent_rename f value

@[simp] theorem leaves_smul (value : Value) : (f • value).leaves = f • value.leaves :=
  leaves_rename f value

@[simp] theorem elementTypes_smul (value : Value) : (f • value).elementTypes = value.elementTypes :=
  elementTypes_rename f value

theorem toArray_smul (value : Value) : (f • value).toArray = f • value.toArray := by
  have built : ∀ element : ElementType,
      (f • value).leaves.map element.element = f • value.leaves.map element.element := by
    intro element
    simp only [leaves_smul, smul_eq_map, List.map_map, Function.comp_def, ElementType.element_smul]
  have opened :
      (if mostDirections < (f • value).extent.shape.length then
        .error (.arrayTooDeep mostDirections)
      else if (f • value).extent.ragged then .error (.raggedArray (f • value).extent.shape)
      else .ok (array (ElementType.joinAll (f • value).elementTypes) (f • value).extent.shape
        ((f • value).leaves.map (ElementType.joinAll (f • value).elementTypes).element) {})) =
      f • (if mostDirections < value.extent.shape.length then .error (.arrayTooDeep mostDirections)
      else if value.extent.ragged then .error (.raggedArray value.extent.shape)
      else .ok (array (ElementType.joinAll value.elementTypes) value.extent.shape
        (value.leaves.map (ElementType.joinAll value.elementTypes).element) {}) :
        Except Crash Value) := by
    rw [extent_smul, elementTypes_smul, built]
    split_ifs
    · rfl
    · rfl
    · simp
  cases value with
  | array element shape items stamp => simp [toArray]
  | _ => exact opened

@[simp] theorem ofElement_smul (element : ElementType) (value : Value) :
    ofElement element (f • value) = f • ofElement element value := by
  cases element <;> cases value <;> simp [ofElement]

theorem slices_smul (element : ElementType) (shape : Shape) (items : List Value) :
    slices element shape (f • items) = f • slices element shape items := by
  match shape with
  | [] => rfl
  | [_] => simp [slices, smul_eq_map]
  | count :: size :: inner =>
    simp [slices, smul_eq_map, Shape.parts_map, Function.comp_def]

namespace Operand

instance : SMul Renaming Operand := ⟨fun f operand => { operand with items := f • operand.items }⟩

@[simp] theorem smul_mk (type : Option ElementType) (shape : Shape) (items : List Value) :
    f • (⟨type, shape, items⟩ : Operand) = ⟨type, shape, f • items⟩ := rfl

@[simp] theorem type_smul (operand : Operand) : (f • operand).type = operand.type := rfl

@[simp] theorem shape_smul (operand : Operand) : (f • operand).shape = operand.shape := rfl

@[simp] theorem items_smul (operand : Operand) : (f • operand).items = f • operand.items := rfl

@[simp] theorem className_smul (operand : Operand) : (f • operand).className = operand.className := by
  obtain ⟨type, shape, items⟩ := operand
  cases type with
  | some type => rfl
  | none =>
    cases items with
    | nil => rfl
    | cons item items => cases item <;> rfl

theorem formatBeside_smul (type : ElementType) (number : Number) :
    type.formatBeside (f • number) = type.formatBeside number := by
  cases type with
  | real type => cases type <;> cases number <;> rfl
  | _ => rfl

@[simp] theorem format_smul_smul (a b : Operand) : (f • a).format (f • b) = a.format b := by
  have number : ∀ operand : Operand,
      (f • operand).items.head?.bind number? = f • operand.items.head?.bind number? := by
    intro operand
    rw [items_smul, head?_smul]
    cases operand.items.head? <;> simp
  unfold format
  rw [number, number, type_smul, type_smul]
  cases a.type <;> cases b.type <;> cases a.items.head?.bind number? <;>
    cases b.items.head?.bind number? <;> simp [formatBeside_smul]

@[simp] theorem operation?_smul_smul (a b : Operand) : (f • a).operation? (f • b) = a.operation? b := by
  rw [operation?, format_smul_smul, type_smul, type_smul, operation?]

end Operand

theorem toOperand_smul (value : Value) : (f • value).toOperand = f • value.toOperand := by
  have same := toArray_smul f value
  cases value with
  | list items | tuple items =>
    simp only [smul_list, smul_tuple, toOperand] at same ⊢
    rw [same]
    cases toArray _ with
    | error crash => rfl
    | ok result => cases result <;> simp
  | _ => simp [toOperand, ElementType.ofLeaf, plain]

theorem numbersHold_smul_smul (format : BinaryFormat) (comparison : Comparison) (a b : Value) :
    numbersHold format comparison (f • a) (f • b) = numbersHold format comparison a b := by
  unfold numbersHold
  rw [number?_smul, number?_smul]
  cases a.number? <;> cases b.number? <;> simp

theorem machineHolds_smul_smul (comparison : Comparison) (a b : Value) :
    machineHolds comparison (f • a) (f • b) = machineHolds comparison a b := by
  unfold machineHolds
  rw [toOperand_smul, toOperand_smul]
  cases a.toOperand with
  | error crash => rfl
  | ok x =>
    cases b.toOperand with
    | error crash => rfl
    | ok y =>
      simp only [Except.smul_ok, bind, Except.bind, Operand.operation?_smul_smul,
        Operand.className_smul, numbersHold_smul_smul, plain_smul, plainHolds_smul_smul]

theorem scalarsHold_smul_smul (comparison : Comparison) (a b : Value) :
    scalarsHold comparison (f • a) (f • b) = scalarsHold comparison a b := by
  simp only [scalarsHold, isMachineNumber_smul, machineHolds_smul_smul, plainHolds_smul_smul]

theorem holds_smul_smul (comparison : Comparison) (a b : Value) (operation : Operation) :
    operation.holds comparison (f • a) (f • b) = operation.holds comparison a b := by
  cases operation with
  | numbers format => exact numbersHold_smul_smul f format comparison a b
  | texts => exact plainHolds_smul_smul f comparison a b
  | objects => exact scalarsHold_smul_smul f comparison a b

end Value

namespace Shape

variable {α β : Type} (change : α → β)

theorem spread_map (shape wide : Shape) (items : List α) :
    spread shape wide (items.map change) = (spread shape wide items).map change := by
  induction shape generalizing wide items with
  | nil => rfl
  | cons m shape ih =>
    cases wide with
    | nil => rfl
    | cons n wide =>
      have rows : ((parts (size shape) m (items.map change)).map (spread shape wide)).flatten =
          ((parts (size shape) m items).map (spread shape wide)).flatten.map change := by
        simp only [parts_map, List.map_map, List.map_flatten, Function.comp_def, ih]
      simp only [spread, rows]
      split <;> simp [List.map_flatten]

theorem spreadTo_map (wide shape : Shape) (items : List α) :
    spreadTo wide shape (items.map change) = (spreadTo wide shape items).map change :=
  spread_map change (shape.padded wide.length) wide items

end Shape

namespace Value

variable (f : Renaming)

theorem elementwise_smul_smul (comparison : Comparison) (a b : Value) :
    elementwise comparison (f • a) (f • b) = f • elementwise comparison a b := by
  unfold elementwise
  rw [toOperand_smul, toOperand_smul]
  cases a.toOperand with
  | error crash => rfl
  | ok x =>
    cases b.toOperand with
    | error crash => rfl
    | ok y =>
      simp only [Except.smul_ok, bind, Except.bind, Operand.operation?_smul_smul, Operand.className_smul,
        Operand.shape_smul, Operand.items_smul, smul_eq_map, Shape.spreadTo_map, List.zip_map,
        List.mapM_map, Function.comp_def, Prod.map_fst, Prod.map_snd, holds_smul_smul]
      split_ifs
      · rfl
      cases x.shape.join? y.shape with
      | none => rfl
      | some shape =>
        simp only
        split
        · rfl
        next results made =>
          have unnamed : f • results = results := by
            refine Except.ok.inj (ε := Crash) ?_
            rw [← Except.smul_ok, ← made, ← Except.mapM_natural f fun pair _ => ?_]
            cases x.operation? y with
            | none => rfl
            | some operation => exact Except.map_unnamed f (fun _ => rfl) _
          simp [pure, Except.pure, unnamed]

theorem machineEquality_smul_smul (a b : Value) :
    machineEquality (f • a) (f • b) = f • machineEquality a b := by
  unfold machineEquality
  have alike : isElementwise (f • a) (f • b) = isElementwise a b := by simp [isElementwise]
  rw [alike, elementwise_smul_smul, machineHolds_smul_smul, plain_smul, plainEquals_smul_smul]
  split
  · rfl
  · cases b with
    | text _ | bool _ | int _ | float _ | complex _ _ | machineBool _ | machineInt _ _
    | machineFloat _ _ => exact Except.map_unnamed f (fun _ => rfl) _
    | _ => rfl

theorem unlikeEquality_smul_smul (a b : Value) :
    unlikeEquality (f • a) (f • b) = f • unlikeEquality a b := by
  have general :
      (if (f • a).isMachine then machineEquality (f • a) (f • b)
      else if (f • b).isMachine then machineEquality (f • b) (f • a)
      else .ok (bool (plainEquals (f • a) (f • b)))) =
      f • (if a.isMachine then machineEquality a b
      else if b.isMachine then machineEquality b a else .ok (bool (plainEquals a b))) := by
    rw [isMachine_smul, isMachine_smul, machineEquality_smul_smul, machineEquality_smul_smul,
      plainEquals_smul_smul]
    split_ifs <;> rfl
  cases a with
  | complex re im =>
    cases b with
    | machineFloat type x =>
      cases type with
      | double =>
        exact congrArg (Except.ok ∘ bool) (plainEquals_smul_smul f (complex re im) (float x))
      | _ => exact general
    | _ => exact general
  | _ => exact general

end Value

theorem Value.unlike_smul_smul (f : Renaming) {make : List Value → Value}
    (kept : ∀ value items, f • value = make items → ∃ inner, value = make inner) {a b : Value}
    (unlike : ∀ as bs, a = make as → b = make bs → False) (as bs : List Value)
    (left : f • a = make as) (right : f • b = make bs) : False := by
  obtain ⟨inner, rfl⟩ := kept a as left
  obtain ⟨other, rfl⟩ := kept b bs right
  exact unlike inner other rfl rfl

theorem Value.list_of_smul (f : Renaming) (value : Value) (items : List Value)
    (same : f • value = .list items) : ∃ inner, value = .list inner := by
  cases value <;> simp at same ⊢

theorem Value.tuple_of_smul (f : Renaming) (value : Value) (items : List Value)
    (same : f • value = .tuple items) : ∃ inner, value = .tuple inner := by
  cases value <;> simp at same ⊢

theorem Value.equality_of_unlike (f : Renaming) {a b : Value}
    (lists : ∀ as bs, a = .list as → b = .list bs → False)
    (tuples : ∀ as bs, a = .tuple as → b = .tuple bs → False) :
    equality (f • a) (f • b) = f • equality a b := by
  rw [equality.eq_3 a b lists tuples, equality.eq_3 (f • a) (f • b)
    (unlike_smul_smul f (list_of_smul f) lists) (unlike_smul_smul f (tuple_of_smul f) tuples),
    unlikeEquality_smul_smul]

theorem Value.truth_of_smul (f : Renaming) (result : Except Crash Value) :
    (f • result >>= truth) = (result >>= truth) := by
  cases result with
  | ok value => exact truth_smul f value
  | error crash => rfl

mutual

theorem Value.equality_rename_rename (f : Renaming) : ∀ a b : Value,
    equality (a.rename f) (b.rename f) = f • equality a b
  | .list as, b => by
    cases b with
    | list bs =>
      simp only [Value.rename, Value.equality, Value.equalAll_renameAll f as bs]
      rw [Value.renameAll_eq, Value.renameAll_eq, length_smul, length_smul]
      split
      · exact Except.map_unnamed f (fun _ => rfl) _
      · rfl
    | _ => exact Value.equality_of_unlike f (by simp) (by simp)
  | .tuple as, b => by
    cases b with
    | tuple bs =>
      simp only [Value.rename, Value.equality, Value.equalAll_renameAll f as bs]
      exact Except.map_unnamed f (fun _ => rfl) _
    | _ => exact Value.equality_of_unlike f (by simp) (by simp)
  | .nil, b | .bool _, b | .float _, b | .int _, b | .complex _ _, b | .text _, b | .dict, b
  | .machineBool _, b | .machineInt _ _, b | .machineFloat _ _, b | .array _ _ _ _, b | .code _, b
  | .closure _ _ _ _, b | .form _, b | .operative _ _ _, b | .native _, b | .adapter _ _ _ _, b
  | .kind _, b | .scope _, b | .picture _ _ _, b =>
    Value.equality_of_unlike f (by simp) (by simp)

theorem Value.equalAll_renameAll (f : Renaming) : ∀ as bs : List Value,
    equalAll (Value.renameAll f as) (Value.renameAll f bs) = equalAll as bs
  | [], [] | [], _ :: _ | _ :: _, [] => rfl
  | a :: as, b :: bs => by
    have same : (a.rename f).isSame (b.rename f) = a.isSame b := Value.isSame_smul_smul f a b
    simp only [Value.renameAll, Value.equalAll, Value.equality_rename_rename f a b,
      Value.equalAll_renameAll f as bs, Value.truth_of_smul, same]

end

namespace Value

variable (f : Renaming)

theorem unlikeGreater_smul_smul (a b : Value) : unlikeGreater (f • a) (f • b) = unlikeGreater a b := by
  have alike : ∀ a b : Value, isElementwise (f • a) (f • b) = isElementwise a b := fun a b => by
    simp [isElementwise]
  unfold unlikeGreater
  rw [isMachine_smul, isMachine_smul, alike, alike, elementwise_smul_smul, elementwise_smul_smul,
    truth_of_smul, truth_of_smul, machineHolds_smul_smul, machineHolds_smul_smul,
    plainHolds_smul_smul]

theorem greater_of_unlike {a b : Value} (lists : ∀ as bs, a = .list as → b = .list bs → False)
    (tuples : ∀ as bs, a = .tuple as → b = .tuple bs → False) :
    greater (f • a) (f • b) = greater a b := by
  rw [greater.eq_3 a b lists tuples, greater.eq_3 (f • a) (f • b)
    (unlike_smul_smul f (list_of_smul f) lists) (unlike_smul_smul f (tuple_of_smul f) tuples),
    unlikeGreater_smul_smul]

end Value

mutual

theorem Value.greater_rename_rename (f : Renaming) : ∀ a b : Value,
    greater (a.rename f) (b.rename f) = greater a b
  | .list as, b => by
    cases b with
    | list bs => exact Value.greaterAll_renameAll f as bs
    | _ => exact Value.greater_of_unlike f (by simp) (by simp)
  | .tuple as, b => by
    cases b with
    | tuple bs => exact Value.greaterAll_renameAll f as bs
    | _ => exact Value.greater_of_unlike f (by simp) (by simp)
  | .nil, b | .bool _, b | .float _, b | .int _, b | .complex _ _, b | .text _, b | .dict, b
  | .machineBool _, b | .machineInt _ _, b | .machineFloat _ _, b | .array _ _ _ _, b | .code _, b
  | .closure _ _ _ _, b | .form _, b | .operative _ _ _, b | .native _, b | .adapter _ _ _ _, b
  | .kind _, b | .scope _, b | .picture _ _ _, b =>
    Value.greater_of_unlike f (by simp) (by simp)

theorem Value.greaterAll_renameAll (f : Renaming) : ∀ as bs : List Value,
    greaterAll (Value.renameAll f as) (Value.renameAll f bs) = greaterAll as bs
  | [], [] | [], _ :: _ | _ :: _, [] => rfl
  | a :: as, b :: bs => by
    have same : (a.rename f).isSame (b.rename f) = a.isSame b := Value.isSame_smul_smul f a b
    simp only [Value.renameAll, Value.greaterAll, Value.equality_rename_rename f a b,
      Value.greater_rename_rename f a b, Value.greaterAll_renameAll f as bs, Value.truth_of_smul, same]

end

namespace Value

variable (f : Renaming)

theorem equality_smul_smul (a b : Value) : equality (f • a) (f • b) = f • equality a b :=
  equality_rename_rename f a b

theorem greater_smul_smul (a b : Value) : greater (f • a) (f • b) = greater a b :=
  greater_rename_rename f a b

theorem greatestFrom_smul (values : List Value) (best : Value) :
    greatestFrom (f • best) (f • values) = f • greatestFrom best values := by
  induction values generalizing best with
  | nil => rfl
  | cons value values ih =>
    rw [smul_cons, greatestFrom, greater_smul_smul, greatestFrom]
    cases value.greater best with
    | error crash => rfl
    | ok isGreater =>
      cases isGreater with
      | true => exact ih value
      | false => exact ih best

theorem iterate_smul (value : Value) : (f • value).iterate = f • value.iterate := by
  cases value with
  | text s => simp [iterate, smul_eq_map]
  | array element shape items stamp => simp [iterate, slices_smul]
  | _ => simp [iterate, kindOf]

theorem length_smul (value : Value) : (f • value).length = value.length := by
  cases value with
  | array element shape items stamp => cases shape <;> rfl
  | _ => simp [length, kindOf]

theorem greatest_smul (values : List Value) : greatest (f • values) = f • greatest values := by
  match values with
  | [] => rfl
  | [sequence] =>
    change greatest [f • sequence] = _
    rw [greatest, iterate_smul, greatest]
    cases sequence.iterate with
    | error crash => rfl
    | ok items =>
      cases items with
      | nil => rfl
      | cons item items => exact greatestFrom_smul f items item
  | value :: other :: values => exact greatestFrom_smul f (other :: values) value

theorem join_smul (index : Nat) (values : List Value) : join index (f • values) = join index values := by
  induction values generalizing index with
  | nil => rfl
  | cons value values ih =>
    cases value with
    | text s => simp only [smul_cons, smul_text, join, ih]
    | code expr => simp [join, kindOf]
    | _ => rfl

end Value

end HostLisp
