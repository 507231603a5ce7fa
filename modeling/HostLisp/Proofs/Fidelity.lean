import HostLisp.Proofs.Rounding
import HostLisp.Proofs.Unions

/-!
Conversions are faithful. What a conversion gives is said without the type that it was asked for: a
truth value for the same truth value, for a number the same integer or the nearest number of a format,
for items the items that correspond to them, and for everything else the value itself.
-/

namespace HostLisp

namespace TypeExpr

mutual

def isArrayFree : TypeExpr → Bool
  | kind k => k ≠ .array
  | sequenceOf _ arguments => areArrayFree arguments
  | tupleOf _ element => isArrayFree element
  | tupleExactly _ elements => areArrayFree elements
  | union _ members => areArrayFree members
  | callableOf arguments result => areArrayFree arguments && isArrayFree result
  | generic origin arguments => origin ≠ .array && areArrayFree arguments
  | annotated type _ => isArrayFree type
  | _ => true

def areArrayFree : List TypeExpr → Bool
  | [] => true
  | type :: types => isArrayFree type && areArrayFree types

end

theorem areArrayFree_iff {types : List TypeExpr} :
    areArrayFree types = true ↔ ∀ type ∈ types, type.isArrayFree = true := by
  induction types with
  | nil => simp [areArrayFree]
  | cons type types ih => simp [areArrayFree, ih]

end TypeExpr

theorem RealType.proper (width : RealType) : width.format.Proper := by
  cases width <;> exact ⟨by decide, by decide⟩

namespace Quantity

def ratio? : Quantity → Option Rat
  | whole n => some n
  | floating x => x.toRat?

theorem toInt?_eq_some_iff (quantity : Quantity) (n : Int) :
    quantity.toInt? = some n ↔ quantity.ratio? = some (n : Rat) := by
  cases quantity with
  | whole m => simp [toInt?, ratio?]
  | floating x =>
    cases x with
    | nan _ | infinity _ => simp [toInt?, Floating.toInt?, ratio?, Floating.toRat?, Floating.toDyadic?]
    | negativeZero =>
      simp only [toInt?, Floating.toInt?, ratio?, Floating.toRat?, Floating.toDyadic?, Option.map_some,
        Dyadic.toRat_zero, Option.some_inj]
      exact_mod_cast Iff.rfl
    | finite value =>
      simp only [toInt?, Floating.toInt?, ratio?, Floating.toRat?, Floating.toDyadic?, Option.map_some,
        Option.some_inj]
      constructor
      · intro whole
        split at whole
        · next integral =>
          cases whole
          exact (Rat.coe_int_num_of_den_eq_one integral).symm
        · cases whole
      · intro same
        rw [same, if_pos (Rat.den_intCast n), Rat.num_intCast]

inductive Doubled : Quantity → Floating → Prop where
  | whole {n : Int} {x : Floating} {r : Rat} (rounds : BinaryFormat.double.Rounds n r)
      (inside : |r| < 2 ^ BinaryFormat.double.limit) (made : x.toRat? = some r)
      (sign : x.isNegative = decide (n < 0)) : Doubled (.whole n) x
  | floating (x : Floating) : Doubled (.floating x) x

theorem doubled_of_toFloating {quantity : Quantity} {x : Floating}
    (made : quantity.toFloating = .ok x) : quantity.Doubled x := by
  cases quantity with
  | floating y =>
    cases made
    exact .floating x
  | whole n =>
    have rounded := (RealType.proper .double).round_rounded (n : Rat)
    have negative : decide ((n : Rat) < 0) = decide (n < 0) := decide_eq_decide.mpr Int.cast_lt_zero
    rw [negative] at rounded
    rw [toFloating, Floating.ofInt] at made
    change BinaryFormat.double.Rounded _ _ (BinaryFormat.double.round n) at rounded
    split at made
    · cases made
    · next finite =>
      cases made
      generalize BinaryFormat.double.round n = x at rounded finite ⊢
      cases rounded with
      | within rounds inside same sign => exact .whole rounds inside same sign
      | beyond rounds outside => exact absurd rfl (finite _)

/-- What a number may become: the same integer, or the number nearest to it in a format. -/
inductive Becomes (quantity : Quantity) : Value → Prop where
  | int {n : Int} (same : quantity.ratio? = some (n : Rat)) : Becomes quantity (.int n)
  | machineInt {width : IntegerType} {n : Int} (same : quantity.ratio? = some (n : Rat))
      (held : width.least ≤ n ∧ n ≤ width.greatest) : Becomes quantity (.machineInt width n)
  | float {x : Floating} (doubled : quantity.Doubled x) : Becomes quantity (.float x)
  | machineFloat {width : RealType} {x y : Floating} (doubled : quantity.Doubled x)
      (kept : width.format.Kept x y) : Becomes quantity (.machineFloat width y)
  | complex {x : Floating} (doubled : quantity.Doubled x) :
      Becomes quantity (.complex x (.finite 0))

end Quantity

namespace Value

def truthValue? : Value → Option Bool
  | bool b => some b
  | machineBool b => some b
  | _ => none

def isNumber : Value → Bool
  | complex _ _ => true
  | value => value.quantity?.isSome

/-- A value and what conversions may give for it. -/
inductive Corresponds : Value → Value → Prop where
  | same (value : Value) : Corresponds value value
  | truth {value result : Value} {b : Bool} (given : value.truthValue? = some b)
      (made : result.truthValue? = some b) : Corresponds value result
  | number {value result : Value} {quantity : Quantity} (given : value.quantity? = some quantity)
      (becomes : quantity.Becomes result) : Corresponds value result
  | items {value result : Value} {items results : List Value} (given : value.items? = some items)
      (made : result.items? = some results) (count : items.length = results.length)
      (each : ∀ pair ∈ items.zip results, Corresponds pair.1 pair.2) : Corresponds value result

theorem eq_of_items? {value : Value} {items : List Value} (given : value.items? = some items) :
    value = list items ∨ value = tuple items := by
  cases value with
  | list _ =>
    cases given
    exact .inl rfl
  | tuple _ =>
    cases given
    exact .inr rfl
  | _ => cases given

namespace Corresponds

variable {value result : Value}

theorem same_each (items : List Value) : ∀ pair ∈ items.zip items, Corresponds pair.1 pair.2 := by
  intro pair among
  have diagonal : items.zip items = items.map fun item => (item, item) := by
    conv_lhs => rw [← List.map_id items]
    exact List.zip_map'
  rw [diagonal] at among
  obtain ⟨item, -, rfl⟩ := List.mem_map.mp among
  exact .same item

theorem same_items {items : List Value} (given : value.items? = some items)
    (made : result.items? = some items) : Corresponds value result :=
  .items given made rfl (same_each items)

theorem truthValue?_eq (corresponds : Corresponds value result) :
    result.truthValue? = value.truthValue? := by
  cases corresponds with
  | same => rfl
  | truth given made => rw [given, made]
  | number given becomes =>
    have none : value.truthValue? = none := by
      cases value with
      | bool _ | machineBool _ => cases given
      | _ => rfl
    rw [none]
    cases becomes <;> rfl
  | items given made =>
    rcases eq_of_items? given with rfl | rfl <;> rcases eq_of_items? made with rfl | rfl <;> rfl

theorem isNumber_eq (corresponds : Corresponds value result) : result.isNumber = value.isNumber := by
  cases corresponds with
  | same => rfl
  | truth given made =>
    have truth : ∀ {value : Value} {b : Bool}, value.truthValue? = some b → value.isNumber = false := by
      intro value b given
      cases value with
      | bool _ | machineBool _ => rfl
      | _ => cases given
    rw [truth given, truth made]
  | number given becomes =>
    have number : value.isNumber = true := by
      cases value with
      | complex _ _ => rfl
      | _ => exact Option.isSome_of_eq_some given
    rw [number]
    cases becomes <;> rfl
  | items given made =>
    rcases eq_of_items? given with rfl | rfl <;> rcases eq_of_items? made with rfl | rfl <;> rfl

theorem becomes (corresponds : Corresponds value result) {quantity : Quantity}
    (given : value.quantity? = some quantity) : result = value ∨ quantity.Becomes result := by
  cases corresponds with
  | same => exact .inl rfl
  | truth truth =>
    cases value with
    | bool _ | machineBool _ => cases given
    | _ => cases truth
  | number same becomes =>
    cases given.symm.trans same
    exact .inr becomes
  | items items => rcases eq_of_items? items with rfl | rfl <;> cases given

theorem eq_of_other (corresponds : Corresponds value result) (truth : value.truthValue? = none)
    (number : value.quantity? = none) (items : value.items? = none) : result = value := by
  cases corresponds with
  | same => rfl
  | truth given => cases truth.symm.trans given
  | number given => cases number.symm.trans given
  | items given => cases items.symm.trans given

theorem items_eq (corresponds : Corresponds value result) {items : List Value}
    (given : value.items? = some items) : ∃ results, result.items? = some results ∧
      items.length = results.length ∧ ∀ pair ∈ items.zip results, Corresponds pair.1 pair.2 := by
  cases corresponds with
  | same => exact ⟨items, given, rfl, same_each items⟩
  | truth truth => rcases eq_of_items? given with rfl | rfl <;> cases truth
  | number number => rcases eq_of_items? given with rfl | rfl <;> cases number
  | items same made count each =>
    cases given.symm.trans same
    exact ⟨_, made, count, each⟩

end Corresponds

def IsInteger (value : Value) (n : Int) : Prop :=
  ∃ quantity, value.quantity? = some quantity ∧ quantity.ratio? = some (n : Rat)

theorem toInt?_eq_some_iff (value : Value) (n : Int) :
    value.quantity?.bind Quantity.toInt? = some n ↔ value.IsInteger n := by
  simp only [IsInteger, Option.bind_eq_some_iff, Quantity.toInt?_eq_some_iff]

theorem IntegerType.holds_iff (width : IntegerType) (n : Int) :
    width.holds n = true ↔ width.least ≤ n ∧ n ≤ width.greatest := by
  simp [IntegerType.holds]

theorem convert_int (value : Value) :
    (∀ result, value.convert (.kind .int) = .ok result ↔ ∃ n, value.IsInteger n ∧ result = int n) ∧
      ((∀ n, ¬value.IsInteger n) →
        value.convert (.kind .int) = .error (.refused (.unsuitable value.kindOf (.kind .int)))) := by
  rw [convert, toKind]
  simp only [← toInt?_eq_some_iff]
  cases value.quantity?.bind Quantity.toInt? with
  | none =>
    refine ⟨fun result => ?_, fun _ => rfl⟩
    simp [refuse]
  | some n =>
    refine ⟨fun result => ?_, fun other => absurd rfl (other n)⟩
    simp [eq_comm]

theorem convert_machineInt (value : Value) (width : IntegerType) :
    (∀ result, value.convert (.kind (.machineInt width)) = .ok result ↔
      ∃ n, value.IsInteger n ∧ (width.least ≤ n ∧ n ≤ width.greatest) ∧ result = machineInt width n) ∧
      ((∀ n, ¬value.IsInteger n) → value.convert (.kind (.machineInt width)) =
        .error (.refused (.unsuitable value.kindOf (.kind (.machineInt width))))) ∧
      ∀ n, value.IsInteger n → ¬(width.least ≤ n ∧ n ≤ width.greatest) →
        value.convert (.kind (.machineInt width)) =
          .error (if hasText n then .refused (.outOfRange (toString n) (.machineInt width))
            else .crashed .tooManyDigits) := by
  rw [convert, toKind, toMachineInt]
  simp only [← toInt?_eq_some_iff, ← IntegerType.holds_iff]
  cases value.quantity?.bind Quantity.toInt? with
  | none =>
    refine ⟨fun result => ?_, fun _ => rfl, fun n same => ?_⟩
    · simp [refuse]
    · cases same
  | some n =>
    refine ⟨fun result => ?_, fun other => absurd rfl (other n), fun m same outside => ?_⟩
    · dsimp only
      split
      · next held =>
        constructor
        · intro made
          cases made
          exact ⟨n, rfl, held, rfl⟩
        · rintro ⟨m, same, -, rfl⟩
          cases same
          rfl
      · next outside =>
        constructor
        · intro made
          split at made <;> cases made
        · rintro ⟨m, same, held, -⟩
          cases same
          exact absurd held outside
    · cases same
      dsimp only
      rw [if_neg outside]
      split <;> rfl

theorem exceeds_eq_false_iff {format : BinaryFormat} {x : Floating} :
    exceeds format x = false ↔ ∀ q, x.toRat? = some q → |q| ≤ format.greatest.toRat := by
  have size := Floating.toRat?_abs x
  rw [Floating.toRat?] at size
  unfold exceeds
  split
  · next none =>
    rw [none] at size
    have other : x.toRat? = .none := Option.map_eq_none_iff.mp size.symm
    simp [other]
  · next magnitude found =>
    rw [found] at size
    obtain ⟨q, number, same⟩ := Option.map_eq_some_iff.mp size.symm
    simp [number, same, ← Dyadic.toRat_lt_toRat_iff]

theorem doubled_of_toFloating {value : Value} {type : TypeExpr} {x : Floating}
    (made : value.toFloating type = .ok x) :
    ∃ quantity, value.quantity? = some quantity ∧ quantity.Doubled x := by
  obtain ⟨quantity, found, made⟩ := Except.bind_eq_ok made
  exact ⟨quantity, quantity_of_toQuantity found,
    Quantity.doubled_of_toFloating (Except.mapError_eq_ok made)⟩

theorem Casts.corresponds {target : Kind} {value result : Value} (casts : Casts target value result)
    (apart : target ≠ .array) : Corresponds value result := by
  cases casts with
  | bool given | machineBool given => obtain rfl | rfl := given <;> exact .truth rfl rfl
  | int whole =>
    obtain ⟨quantity, given, same⟩ := (toInt?_eq_some_iff value _).mp whole
    exact .number given (.int same)
  | machineInt whole held =>
    obtain ⟨quantity, given, same⟩ := (toInt?_eq_some_iff value _).mp whole
    exact .number given (.machineInt same ((IntegerType.holds_iff ..).mp held))
  | float floats =>
    obtain ⟨quantity, given, doubled⟩ := doubled_of_toFloating floats
    exact .number given (.float doubled)
  | @machineFloat width value x floats within =>
    obtain ⟨quantity, given, doubled⟩ := doubled_of_toFloating floats
    have kept := width.proper.cast_kept (exceeds_eq_false_iff.mp within)
    exact .number given (.machineFloat doubled kept)
  | real floats =>
    obtain ⟨quantity, given, doubled⟩ := doubled_of_toFloating floats
    exact .number given (.complex doubled)
  | array => exact absurd rfl apart
  | list given | tuple given => exact .same_items given rfl
  | complex | same => exact .same _

theorem Converts.corresponds {type : TypeExpr} {value result : Value}
    (converts : Converts type value result) (free : type.isArrayFree = true) :
    Corresponds value result := by
  induction converts with
  | none | expression | callable | callableOf | generic | whatever => exact .same _
  | @kind target _ _ made =>
    have apart : target ≠ .array := by simpa [TypeExpr.isArrayFree] using free
    exact (casts_of_toKind made).corresponds apart
  | sequence _ found =>
    obtain ⟨-, rfl, -⟩ | ⟨-, items, given, rfl⟩ := asSequence?_eq_some found
    · exact .same _
    · exact .same_items given rfl
  | sequenceOfAll _ given | tuple _ given | tupleOfAll _ given =>
    exact .same_items given rfl
  | sequenceOf spelling others given count _ each =>
    have element := (TypeExpr.areArrayFree_iff.mp free) _ (List.mem_cons_self ..)
    exact .items given rfl count fun pair among => each pair among element
  | tupleOf spelling given count _ each =>
    exact .items given rfl count fun pair among => each pair among free
  | tupleExactly spelling _ given fits count _ each =>
    have elements := TypeExpr.areArrayFree_iff.mp free
    exact .items given rfl count
      (forall_pairs _ fits fun entry among => each entry among (elements _ (List.of_mem_zip among).1))
  | union spelling back _ _ holds =>
    exact holds (TypeExpr.areArrayFree_iff.mp free _ (by simp))

end Value

/-- A conversion to a type without arrays gives a value that corresponds to the one it was given: truth
values stay the same, numbers stay numbers, lists and tuples keep as many items in the same order, and
everything else stays as it is. Just the integers within range become integers, of a machine or not; the
rest is refused. -/
theorem conversion_faithful {type : TypeExpr} (free : type.isArrayFree = true) {value result : Value}
    (converted : value.convert type = .ok result) :
    value.Corresponds result ∧
    result.truthValue? = value.truthValue? ∧
    result.isNumber = value.isNumber ∧
    (∀ quantity, value.quantity? = some quantity → result = value ∨ quantity.Becomes result) ∧
    (∀ items, value.items? = some items → ∃ results, result.items? = some results ∧
      items.length = results.length ∧ ∀ pair ∈ items.zip results, pair.1.Corresponds pair.2) ∧
    (value.truthValue? = none → value.quantity? = none → value.items? = none → result = value) ∧
    ∀ given : Value,
      (∀ made, given.convert (.kind .int) = .ok made ↔ ∃ n, given.IsInteger n ∧ made = .int n) ∧
      ((∀ n, ¬given.IsInteger n) →
        given.convert (.kind .int) = .error (.refused (.unsuitable given.kindOf (.kind .int)))) ∧
      ∀ width : IntegerType,
        (∀ made, given.convert (.kind (.machineInt width)) = .ok made ↔
          ∃ n, given.IsInteger n ∧ (width.least ≤ n ∧ n ≤ width.greatest) ∧
            made = .machineInt width n) ∧
        ((∀ n, ¬given.IsInteger n) → given.convert (.kind (.machineInt width)) =
          .error (.refused (.unsuitable given.kindOf (.kind (.machineInt width))))) ∧
        ∀ n, given.IsInteger n → ¬(width.least ≤ n ∧ n ≤ width.greatest) →
          given.convert (.kind (.machineInt width)) =
            .error (if hasText n then .refused (.outOfRange (toString n) (.machineInt width))
              else .crashed .tooManyDigits) := by
  have corresponds := (Value.converts_of_convert type converted).corresponds free
  refine ⟨corresponds, corresponds.truthValue?_eq, corresponds.isNumber_eq, ?_, ?_, ?_, ?_⟩
  · exact fun quantity => corresponds.becomes
  · exact fun items => corresponds.items_eq
  · exact corresponds.eq_of_other
  · intro given
    obtain ⟨whole, other⟩ := given.convert_int
    exact ⟨whole, other, given.convert_machineInt⟩

theorem conversion_faithful_nested :
    let small : TypeExpr := .sequenceOf .list [.kind (.machineInt .int8)]
    let type : TypeExpr := .tupleExactly .tuple
      [small, .kind (.machineFloat .single), .union .named [.kind .int, .kind .bool]]
    let value : Value :=
      .list [.tuple [.float (.finite 5), .int (-128)], .int (2 ^ 24 + 1), .machineBool true]
    let result : Value := .tuple [.list [.machineInt .int8 5, .machineInt .int8 (-128)],
      .machineFloat .single (.finite (2 ^ 24)), .bool true]
    type.isArrayFree = true ∧ value.convert type = .ok result ∧ value.Corresponds result := by
  intro small type value result
  have free : type.isArrayFree = true := by decide
  have converted : value.convert type = .ok result := by rfl
  exact ⟨free, converted, (conversion_faithful free converted).1⟩

end HostLisp
