import HostLisp.Proofs.Conversions
import HostLisp.Proofs.Limits
import HostLisp.Proofs.Shapes
import Mathlib.Algebra.Group.Int.Defs

/-!
Conversion to a union. Its members are tried in order, and a member that refuses the value hands it on
to the next one. A member that crashes does not: that ends the conversion, whatever comes after it. No
conversion crashes on a value whose integers lie within the range of floats and whose sequences make
arrays, so for these values the first member that converts is always found.
-/

namespace HostLisp

def Quantity.isModerate (quantity : Quantity) : Bool :=
  quantity.toFloating.isOk && quantity.toInt?.all hasText

namespace Value

def isRegular (value : Value) : Bool :=
  decide (value.extent.shape.length ≤ mostDirections) && !value.extent.ragged

mutual

def isModerate : Value → Bool
  | list items => isRegular (list items) && areModerate items
  | tuple items => isRegular (tuple items) && areModerate items
  | value => value.quantity?.all Quantity.isModerate

def areModerate : List Value → Bool
  | [] => true
  | value :: values => isModerate value && areModerate values

end

/-- A conversion that has an end, well or badly, but does not crash. -/
def Calm {α : Type} (result : Except ConversionError α) : Prop :=
  ∀ crash, result ≠ .error (.crashed crash)

theorem calm_ok {α : Type} (value : α) : Calm (.ok value) := fun _ crashed => nomatch crashed

theorem calm_refuse {α : Type} (value : Value) (type : TypeExpr) :
    Calm (value.refuse type : Except ConversionError α) := by
  intro crash crashed
  injection crashed with same
  cases same

theorem calm_map {α β : Type} {f : α → β} {result : Except ConversionError α} (calm : Calm result) :
    Calm (f <$> result) := fun crash crashed => calm crash (Except.map_eq_error crashed)

theorem calm_bind {α β : Type} {result : Except ConversionError α}
    {next : α → Except ConversionError β} (calm : Calm result)
    (rest : ∀ value, result = .ok value → Calm (next value)) : Calm (result >>= next) := by
  intro crash crashed
  cases ended : result with
  | error error =>
    rw [ended] at crashed
    cases crashed
    exact calm crash ended
  | ok value =>
    rw [ended] at crashed
    exact rest value ended crash crashed

theorem calm_mapM {α β : Type} {f : α → Except ConversionError β} {items : List α}
    (each : ∀ item ∈ items, Calm (f item)) : Calm (items.mapM f) := by
  intro crash crashed
  obtain ⟨item, among, crashes⟩ := Except.mapM_eq_error crashed
  exact each item among crash crashes

theorem areModerate_iff {values : List Value} :
    areModerate values = true ↔ ∀ value ∈ values, value.isModerate = true := by
  induction values with
  | nil => simp [areModerate]
  | cons value values ih => simp [areModerate, ih]

section

variable {value : Value} (moderate : value.isModerate = true)
include moderate

theorem moderate_items {items : List Value} (found : value.items? = some items) :
    ∀ item ∈ items, item.isModerate = true := by
  rw [← areModerate_iff]
  cases value with
  | list _ | tuple _ =>
    cases found
    simp only [isModerate, Bool.and_eq_true] at moderate
    exact moderate.2
  | _ => cases found

theorem moderate_quantity {quantity : Quantity} (found : value.quantity? = some quantity) :
    quantity.toFloating.isOk = true ∧ ∀ n, quantity.toInt? = some n → hasText n = true := by
  have holds : quantity.isModerate = true := by
    cases value with
    | int _ | machineInt _ _ | float _ | machineFloat _ _ =>
      cases found
      exact moderate
    | _ => cases found
  unfold Quantity.isModerate at holds
  simp only [Bool.and_eq_true, Option.all_eq_true] at holds
  exact holds

theorem calm_toMachineInt (width : IntegerType) : Calm (value.toMachineInt width) := by
  unfold toMachineInt
  split
  · exact calm_refuse value _
  · next n found =>
    obtain ⟨quantity, isQuantity, whole⟩ := Option.bind_eq_some_iff.mp found
    have text := (moderate_quantity moderate isQuantity).2 n whole
    split
    · exact calm_ok _
    · intro crash crashed
      cases crashed

omit moderate in
theorem calm_toQuantity (value : Value) (type : TypeExpr) : Calm (value.toQuantity type) := by
  unfold toQuantity
  split
  · exact calm_refuse value type
  · exact calm_ok _

omit moderate in
theorem quantity_of_toQuantity {type : TypeExpr} {quantity : Quantity}
    (found : value.toQuantity type = .ok quantity) : value.quantity? = some quantity := by
  unfold toQuantity at found
  split at found
  · cases found
  · next same =>
    cases found
    exact same

theorem calm_quantityFloating {type : TypeExpr} {quantity : Quantity}
    (found : value.toQuantity type = .ok quantity) :
    Calm (quantity.toFloating.mapError ConversionError.crashed) := by
  have ends := (moderate_quantity moderate (quantity_of_toQuantity found)).1
  cases made : quantity.toFloating with
  | ok x => exact calm_ok x
  | error crash =>
    rw [made] at ends
    cases ends

theorem calm_toFloating (type : TypeExpr) : Calm (value.toFloating type) :=
  calm_bind (calm_toQuantity value type) fun _ found => calm_quantityFloating moderate found

theorem calm_toMachineFloat (width : RealType) : Calm (value.toMachineFloat width) := by
  refine calm_bind (calm_toQuantity value _) fun quantity found => ?_
  refine calm_bind (calm_quantityFloating moderate found) fun x _ => ?_
  split
  · intro crash crashed
    cases crashed
  · exact calm_ok _

theorem calm_toArray (sequence : value.isSequence = true) :
    Calm (value.toArray.mapError ConversionError.crashed) := by
  have regular : value.isRegular = true := by
    cases value with
    | list _ | tuple _ =>
      simp only [isModerate, Bool.and_eq_true] at moderate
      exact moderate.1
    | _ => cases sequence
  simp only [isRegular, Bool.and_eq_true, decide_eq_true_eq, Bool.not_eq_true'] at regular
  unfold toArray
  cases value with
  | list _ | tuple _ =>
    simp only
    rw [if_neg (Nat.not_lt.mpr regular.1), if_neg (by simp [regular.2])]
    exact calm_ok _
  | _ => cases sequence

theorem calm_toKind (target : Kind) : Calm (value.toKind target) := by
  unfold toKind
  split
  case h_5 => exact calm_toMachineInt moderate _
  case h_6 => exact calm_toMachineFloat moderate _
  case h_8 => exact calm_map (calm_toFloating moderate _)
  case h_10 => exact calm_map (calm_toFloating moderate _)
  case h_11 =>
    split
    · exact calm_toArray moderate rfl
    · exact calm_toArray moderate rfl
    · exact calm_ok _
    · exact calm_refuse value _
  case h_7 | h_12 | h_13 | h_14 =>
    split
    · exact calm_ok _
    · exact calm_refuse value _
  all_goals exact calm_ok _

end

mutual

theorem calm_convert : ∀ (type : TypeExpr) {value : Value}, value.isModerate = true →
    Calm (convert type value)
  | .unannotated, value, _ | .anything, value, _ | .object, value, _ | .variable _, value, _ => by
    simp only [convert]
    exact calm_ok value
  | .kind target, value, moderate => by
    simp only [convert]
    exact calm_toKind moderate target
  | .none, value, _ | .expression, value, _ | .sequence _, value, _ | .sequenceOf _ [], value, _
  | .tuple _, value, _ | .tupleExactly _ [], value, _ | .callable _, value, _
  | .callableOf _ _, value, _ | .generic _ _, value, _ => by
    simp only [convert]
    split
    · exact calm_ok _
    · exact calm_refuse value _
  | .sequenceOf _ (element :: _), value, moderate | .tupleOf _ element, value, moderate => by
    simp only [convert]
    split
    · next items found =>
      have inside := moderate_items moderate found
      exact calm_map (calm_mapM fun item among => calm_convert element (inside item among))
    · exact calm_refuse value _
  | .tupleExactly _ (first :: others), value, moderate => by
    simp only [convert]
    split
    · next items found =>
      split
      · exact calm_map (calm_convertEach (first :: others) (moderate_items moderate found))
      · intro crash crashed
        cases crashed
    · exact calm_refuse value _
  | .union spelling members, value, moderate => by
    intro crash crashed
    exact calm_convertFirst members moderate crash ((convert_union_crash_iff _ _ _ _).mp crashed)
  | .literal _, value, _ | .annotated _ _, value, _ => by
    simp only [convert]
    exact calm_refuse value _

theorem calm_convertEach : ∀ (types : List TypeExpr) {values : List Value},
    (∀ value ∈ values, value.isModerate = true) → Calm (convertEach types values)
  | [], values, _ => by
    simp only [convertEach]
    exact calm_ok _
  | _ :: _, [], _ => by
    simp only [convertEach]
    exact calm_ok _
  | type :: types, value :: values, moderate => by
    obtain ⟨first, others⟩ := List.forall_mem_cons.mp moderate
    simp only [convertEach]
    exact calm_bind (calm_convert type first) fun _ _ =>
      calm_bind (calm_convertEach types others) fun _ _ => calm_ok _

theorem calm_convertFirst : ∀ (types : List TypeExpr) {value : Value}, value.isModerate = true →
    ∀ crash, convertFirst types value ≠ .error crash
  | [], value, _ => by
    intro crash crashed
    simp only [convertFirst] at crashed
    cases crashed
  | type :: types, value, moderate => by
    intro crash crashed
    simp only [convertFirst] at crashed
    split at crashed
    · cases crashed
    · exact calm_convertFirst types moderate crash crashed
    · next crashes => exact calm_convert type moderate _ crashes

end

/-- The value does not fit the type, and that is all that happens. -/
def Refuses (value : Value) (type : TypeExpr) : Prop :=
  ∃ refusal, convert type value = .error (.refused refusal)

theorem convertFirst_some_iff (types : List TypeExpr) (value result : Value) :
    convertFirst types value = .ok (some result) ↔
      ∃ front member back, types = front ++ member :: back ∧ (∀ type ∈ front, value.Refuses type) ∧
        convert member value = .ok result := by
  induction types with
  | nil => simp [convertFirst]
  | cons type types ih =>
    constructor
    · intro found
      simp only [convertFirst] at found
      split at found
      · next made =>
        cases found
        exact ⟨[], type, types, rfl, List.forall_mem_nil _, made⟩
      · next refusal refuses =>
        obtain ⟨front, member, back, rfl, refused, made⟩ := ih.mp found
        exact ⟨type :: front, member, back, rfl,
          List.forall_mem_cons.mpr ⟨⟨refusal, refuses⟩, refused⟩, made⟩
      · cases found
    · rintro ⟨front, member, back, split, refused, made⟩
      cases front with
      | nil =>
        cases split
        simp only [convertFirst, made]
      | cons first front =>
        cases split
        obtain ⟨⟨refusal, refuses⟩, others⟩ := List.forall_mem_cons.mp refused
        simp only [convertFirst, refuses, ih.mpr ⟨front, member, back, rfl, others, made⟩]

theorem convertFirst_none_iff (types : List TypeExpr) (value : Value) :
    convertFirst types value = .ok none ↔ ∀ type ∈ types, value.Refuses type := by
  induction types with
  | nil => simp [convertFirst]
  | cons type types ih =>
    rw [List.forall_mem_cons, ← ih]
    constructor
    · intro found
      simp only [convertFirst] at found
      split at found
      · cases found
      · next refusal refuses => exact ⟨⟨refusal, refuses⟩, found⟩
      · cases found
    · rintro ⟨⟨refusal, refuses⟩, others⟩
      simp only [convertFirst, refuses, others]

theorem convert_union_ok_iff (spelling : TypeExpr.UnionForm) (members : List TypeExpr)
    (value result : Value) :
    convert (.union spelling members) value = .ok result ↔
      convertFirst members value = .ok (some result) := by
  rw [convert]
  rcases convertFirst members value with crash | (_ | found)
  · simp
  · simp [refuse]
  · simp

theorem convert_union_refused_iff (spelling : TypeExpr.UnionForm) (members : List TypeExpr)
    (value : Value) (refusal : Refusal) :
    convert (.union spelling members) value = .error (.refused refusal) ↔
      convertFirst members value = .ok none ∧
        refusal = .unsuitable value.kindOf (.union spelling members) := by
  rw [convert]
  rcases convertFirst members value with crash | (_ | found)
  · simp
  · simp [refuse, eq_comm]
  · simp

theorem crashes_beyond_floats {n : Int} {negative : Bool}
    (exceeds : Floating.ofInt n = .infinity negative) :
    convert (.kind .float) (int n) = .error (.crashed .integerTooLarge) := by
  have crashes : (Quantity.whole n).toFloating = .error .integerTooLarge := by
    rw [Quantity.toFloating, exceeds]
  have stops : (int n).toFloating (.kind .float) = .error (.crashed .integerTooLarge) := by
    change (Quantity.whole n).toFloating.mapError ConversionError.crashed = _
    rw [crashes]
    rfl
  rw [convert, toKind, stops]
  rfl

theorem exists_first {types : List TypeExpr} {value : Value}
    (calm : ∀ type ∈ types, Calm (convert type value)) {member : TypeExpr} (listed : member ∈ types)
    {result : Value} (made : convert member value = .ok result) :
    ∃ first, convertFirst types value = .ok (some first) := by
  cases found : convertFirst types value with
  | ok choice =>
    cases choice with
    | some first => exact ⟨first, rfl⟩
    | none =>
      obtain ⟨refusal, refuses⟩ := (convertFirst_none_iff types value).mp found member listed
      cases made.symm.trans refuses
  | error crash =>
    obtain ⟨front, other, back, rfl, -, crashes⟩ := (convertFirst_crash_iff types value crash).mp found
    exact absurd crashes (calm other (by simp) crash)

end Value

/-- A union converts a value as the first of its members does that does not refuse it; it refuses what
all of them refuse, and it crashes as the first one does that is not passed over. So a member that
converts the value is found unless an earlier one crashes, and no conversion at all crashes on moderate
values: of those a union takes just what one of its members takes. -/
theorem unions_try_members (spelling : TypeExpr.UnionForm) (members : List TypeExpr) (value : Value) :
    (∀ result, value.convert (.union spelling members) = .ok result ↔
      ∃ front member back, members = front ++ member :: back ∧ (∀ type ∈ front, value.Refuses type) ∧
        value.convert member = .ok result) ∧
    (∀ refusal, value.convert (.union spelling members) = .error (.refused refusal) ↔
      (∀ type ∈ members, value.Refuses type) ∧
        refusal = .unsuitable value.kindOf (.union spelling members)) ∧
    (∀ refusal, (Failure.conversion refusal).className = "ParensTypeError") ∧
    (∀ crash, value.convert (.union spelling members) = .error (.crashed crash) ↔
      ∃ front member back, members = front ++ member :: back ∧ (∀ type ∈ front, value.Refuses type) ∧
        value.convert member = .error (.crashed crash)) ∧
    (value.isModerate = true →
      (∀ type crash, value.convert type ≠ .error (.crashed crash)) ∧
      ((∃ result, value.convert (.union spelling members) = .ok result) ↔
        ∃ member ∈ members, ∃ result, value.convert member = .ok result) ∧
      ((∃ refusal, value.convert (.union spelling members) = .error (.refused refusal)) ↔
        ∀ type ∈ members, value.Refuses type)) := by
  refine ⟨fun result => ?_, fun refusal => ?_, fun refusal => rfl, fun crash => ?_, fun moderate => ?_⟩
  · rw [Value.convert_union_ok_iff, Value.convertFirst_some_iff]
  · rw [Value.convert_union_refused_iff, Value.convertFirst_none_iff]
  · rw [Value.convert_union_crash_iff, Value.convertFirst_crash_iff]
    rfl
  · refine ⟨fun type => Value.calm_convert type moderate, ?_, ?_⟩
    · simp only [Value.convert_union_ok_iff]
      constructor
      · rintro ⟨result, found⟩
        obtain ⟨front, member, back, rfl, -, made⟩ :=
          (Value.convertFirst_some_iff members value result).mp found
        exact ⟨member, by simp, result, made⟩
      · rintro ⟨member, listed, result, made⟩
        exact Value.exists_first (fun type _ => Value.calm_convert type moderate) listed made
    · simp only [Value.convert_union_refused_iff, Value.convertFirst_none_iff]
      simp

/-- An integer beyond all floats crashes where a float is tried, and an integer that comes after it in
the union is never tried. -/
theorem unions_try_members_beyond_floats :
    let value : Value := .int (10 ^ 400)
    value.convert (.kind .int) = .ok value ∧
      value.convert (.union .named [.kind .float, .kind .int]) =
        .error (.crashed .integerTooLarge) ∧
      value.convert (.union .named [.kind .text, .kind .int, .kind .float]) = .ok value := by
  intro value
  have exceeds : Floating.ofInt (10 ^ 400) = .infinity false := by decide +kernel
  have crashes := Value.crashes_beyond_floats exceeds
  obtain ⟨-, -, -, crash, -⟩ := unions_try_members .named [.kind .float, .kind .int] value
  obtain ⟨made, -⟩ := unions_try_members .named [.kind .text, .kind .int, .kind .float] value
  refine ⟨rfl, (crash _).mpr ⟨[], _, _, rfl, List.forall_mem_nil _, crashes⟩, ?_⟩
  refine (made _).mpr ⟨[.kind .text], _, _, rfl, ?_, rfl⟩
  exact List.forall_mem_singleton.mpr ⟨_, rfl⟩

end HostLisp
