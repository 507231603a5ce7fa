import HostLisp.Proofs.Parts

/-!
Conversions and the types that they arrive in. Whatever way a conversion takes, what it gives inhabits
the type that it was asked for.
-/

namespace HostLisp

namespace Value

def Representable : Value → Prop
  | machineInt type n => type.holds n = true
  | machineFloat type x => ∃ y, type.format.cast y = x
  | _ => True

/-- What the values of a type are, said without conversion. -/
inductive Inhabits : TypeExpr → Value → Prop where
  | none : Inhabits .none nil
  | kind {value : Value} {target : Kind} (same : value.kindOf = target)
      (representable : value.Representable) : Inhabits (.kind target) value
  | expression (expr : Expr) : Inhabits .expression (code expr)
  | sequence {spelling : TypeExpr.SequenceForm} (named : spelling ≠ .abstractSequence)
      (items : List Value) : Inhabits (.sequence spelling) (list items)
  | sequenceClass {value : Value} (among : value.kindOf ∈ [.list, .tuple, .text]) :
      Inhabits (.sequence .abstractSequence) value
  | sequenceOfAll (spelling : TypeExpr.SequenceForm) (items : List Value) :
      Inhabits (.sequenceOf spelling []) (list items)
  | sequenceOf (spelling : TypeExpr.SequenceForm) {element : TypeExpr} (others : List TypeExpr)
      {items : List Value} (each : ∀ item ∈ items, Inhabits element item) :
      Inhabits (.sequenceOf spelling (element :: others)) (list items)
  | tuple (spelling : TypeExpr.TupleForm) (items : List Value) :
      Inhabits (.tuple spelling) (tuple items)
  | tupleOf (spelling : TypeExpr.TupleForm) {element : TypeExpr} {items : List Value}
      (each : ∀ item ∈ items, Inhabits element item) :
      Inhabits (.tupleOf spelling element) (tuple items)
  | tupleOfAll (spelling : TypeExpr.TupleForm) (items : List Value) :
      Inhabits (.tupleExactly spelling []) (tuple items)
  | tupleExactly (spelling : TypeExpr.TupleForm) {elements : List TypeExpr} (present : elements ≠ [])
      {items : List Value} (count : elements.length = items.length)
      (each : ∀ pair ∈ elements.zip items, Inhabits pair.1 pair.2) :
      Inhabits (.tupleExactly spelling elements) (tuple items)
  | union (spelling : TypeExpr.UnionForm) {members : List TypeExpr} {member : TypeExpr}
      (listed : member ∈ members) {value : Value} (holds : Inhabits member value) :
      Inhabits (.union spelling members) value
  | callable (spelling : TypeExpr.CallableForm) {value : Value}
      (invokable : value.isInvokable = true) : Inhabits (.callable spelling) value
  | callableOf (arguments : List TypeExpr) (result : TypeExpr) {value : Value}
      (invokable : value.isInvokable = true) : Inhabits (.callableOf arguments result) value
  | generic {origin : Kind} (arguments : List TypeExpr) {value : Value} (same : value.kindOf = origin) :
      Inhabits (.generic origin arguments) value
  | whatever {type : TypeExpr} (silent : type.isSilent = true) (value : Value) : Inhabits type value

theorem representable_of_kindOf {value : Value}
    (integer : ∀ width, value.kindOf = .machineInt width → False)
    (real : ∀ width, value.kindOf = .machineFloat width → False) : value.Representable := by
  cases value with
  | machineInt type n => exact (integer type rfl).elim
  | machineFloat type x => exact (real type rfl).elim
  | _ => trivial

theorem Casts.inhabits {target : Kind} {value result : Value} (casts : Casts target value result) :
    result.kindOf = target ∧ result.Representable := by
  cases casts with
  | machineInt _ held => exact ⟨rfl, held⟩
  | machineFloat => exact ⟨rfl, _, rfl⟩
  | array made =>
    obtain ⟨same, rfl⟩ | ⟨element, shape, rfl⟩ := toArray_eq_ok made
    · refine ⟨same, representable_of_kindOf ?_ ?_⟩
      · simp [same]
      · simp [same]
    · exact ⟨rfl, trivial⟩
  | same alike integer real =>
    subst alike
    exact ⟨rfl, representable_of_kindOf integer real⟩
  | _ => exact ⟨rfl, trivial⟩

theorem Converts.inhabits {type : TypeExpr} {value result : Value}
    (converts : Converts type value result) : Inhabits type result := by
  induction converts with
  | none => exact .none
  | kind made =>
    obtain ⟨same, representable⟩ := (casts_of_toKind made).inhabits
    exact .kind same representable
  | expression expr => exact .expression expr
  | sequence spelling found =>
    obtain ⟨rfl, rfl, among⟩ | ⟨named, items, -, rfl⟩ := asSequence?_eq_some found
    · exact .sequenceClass among
    · exact .sequence named items
  | sequenceOfAll spelling _ => exact .sequenceOfAll spelling _
  | sequenceOf spelling others _ count _ each =>
    exact .sequenceOf spelling others (forall_results count each)
  | tuple spelling _ => exact .tuple spelling _
  | tupleOf spelling _ count _ each => exact .tupleOf spelling (forall_results count each)
  | tupleOfAll spelling _ => exact .tupleOfAll spelling _
  | tupleExactly spelling present _ fits count _ each =>
    exact .tupleExactly spelling present (fits.trans count) (forall_typed_results _ count each)
  | union spelling back _ _ holds => exact .union spelling (by simp) holds
  | callable spelling invokable => exact .callable spelling invokable
  | callableOf arguments result invokable => exact .callableOf arguments result invokable
  | generic arguments same => exact .generic arguments same
  | whatever silent value => exact .whatever silent value

end Value

/-- A conversion that succeeds gives a value that inhabits the type. -/
theorem conversion_inhabits (type : TypeExpr) {value result : Value}
    (converted : value.convert type = .ok result) : Value.Inhabits type result :=
  (Value.converts_of_convert type converted).inhabits

theorem conversion_inhabits_nested :
    let numbers : TypeExpr := .sequenceOf .list [.kind (.machineInt .int8)]
    let type : TypeExpr := .tupleExactly .tuple [numbers, .union .barred [.kind .bool, .kind .int]]
    let value : Value := .list [.tuple [.float (.finite 5), .int 7], .float (.finite 2)]
    let result : Value := .tuple [.list [.machineInt .int8 5, .machineInt .int8 7], .int 2]
    value.convert type = .ok result ∧ Value.Inhabits type result ∧ ¬Value.Inhabits type value := by
  intro numbers type value result
  have converted : value.convert type = .ok result := rfl
  have apart : ∀ elements items,
      ¬Value.Inhabits (.tupleExactly .tuple elements) (.list items) := by
    intro elements items inhabits
    cases inhabits with
    | whatever silent => cases silent
  exact ⟨converted, conversion_inhabits type converted, apart _ _⟩

end HostLisp
