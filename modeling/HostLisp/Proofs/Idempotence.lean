import HostLisp.Proofs.Fidelity
import HostLisp.Proofs.Guards

/-!
Conversion is idempotent. What a conversion gives is of kinds that programs rarely write, so converting
it again takes other ways than before; they lead to the same value. The members of a union may stand in
each other's way, so this holds for types that use unions only to admit nil.
-/

namespace HostLisp

namespace TypeExpr

def isNil : TypeExpr → Bool
  | none => true
  | kind .nil => true
  | _ => false

mutual

/-- Whether each union in a type, at any depth, is one of nil and another type. -/
def isOptionalOnly : TypeExpr → Bool
  | sequenceOf _ arguments => areOptionalOnly arguments
  | tupleOf _ element => isOptionalOnly element
  | tupleExactly _ elements => areOptionalOnly elements
  | union _ members => members.length = 2 && members.any isNil && areOptionalOnly members
  | callableOf arguments result => areOptionalOnly arguments && isOptionalOnly result
  | generic _ arguments => areOptionalOnly arguments
  | annotated type _ => isOptionalOnly type
  | _ => true

def areOptionalOnly : List TypeExpr → Bool
  | [] => true
  | type :: types => isOptionalOnly type && areOptionalOnly types

end

theorem areOptionalOnly_iff {types : List TypeExpr} :
    areOptionalOnly types = true ↔ ∀ type ∈ types, type.isOptionalOnly = true := by
  induction types with
  | nil => simp [areOptionalOnly]
  | cons type types ih => simp [areOptionalOnly, ih]

theorem member_of_isOptionalOnly {form : UnionForm} {front back : List TypeExpr} {member : TypeExpr}
    (only : (union form (front ++ member :: back)).isOptionalOnly = true) :
    member.isOptionalOnly = true ∧ (front = [] ∨
      ∃ first, front = [first] ∧ back = [] ∧ (first.isNil = true ∨ member.isNil = true)) := by
  simp only [isOptionalOnly, Bool.and_eq_true, decide_eq_true_eq] at only
  obtain ⟨⟨two, absent⟩, each⟩ := only
  refine ⟨areOptionalOnly_iff.mp each member (by simp), ?_⟩
  match front, back with
  | [], _ => exact .inl rfl
  | [first], [] => exact .inr ⟨first, rfl, rfl, by simpa using absent⟩
  | [_], _ :: _ | _ :: _ :: _, _ =>
    simp only [List.length_append, List.length_cons] at two
    omega

theorem isOptionalOnly_optional {type : TypeExpr} (alone : type.alternatives = [type])
    (only : type.isOptionalOnly = true) : type.optional.isOptionalOnly = true := by
  have spread : [type, .kind .nil].flatMap alternatives = [type, .kind .nil] := by
    rw [List.flatMap_cons, alone]
    rfl
  unfold optional unionOf
  rw [spread]
  by_cases same : agrees (.kind .nil) type = true
  · have once : [type, .kind .nil].eraseDupsBy agrees = [type] := by
      simp [List.eraseDupsBy, List.eraseDupsBy.loop, same]
    rw [once]
    exact only
  · have both : [type, .kind .nil].eraseDupsBy agrees = [type, .kind .nil] := by
      simp [List.eraseDupsBy, List.eraseDupsBy.loop, same]
    rw [both]
    simp [isOptionalOnly, areOptionalOnly, isNil, only]

end TypeExpr

theorem Except.mapM_eq_self {ε α : Type} {f : α → Except ε α} {items : List α}
    (each : ∀ item ∈ items, f item = .ok item) : items.mapM f = .ok items := by
  induction items with
  | nil => rfl
  | cons item items ih =>
    obtain ⟨first, others⟩ := List.forall_mem_cons.mp each
    rw [List.mapM_cons, first, ih others]
    rfl

namespace Value

theorem convertEach_eq_self : ∀ {types : List TypeExpr} {values : List Value},
    types.length = values.length → (∀ pair ∈ types.zip values, convert pair.1 pair.2 = .ok pair.2) →
    convertEach types values = .ok values
  | [], [], _, _ => by simp only [convertEach]
  | type :: types, value :: values, fits, each => by
    obtain ⟨first, others⟩ := List.forall_mem_cons.mp each
    simp only [convertEach]
    rw [first, convertEach_eq_self (Nat.succ.inj fits) others]
    rfl

variable {value result : Value}

theorem asSequence?_again {spelling : TypeExpr.SequenceForm}
    (found : value.asSequence? spelling = some result) : result.asSequence? spelling = some result := by
  obtain ⟨rfl, rfl, -⟩ | ⟨named, items, -, rfl⟩ := asSequence?_eq_some found
  · exact found
  · cases spelling with
    | abstractSequence => exact absurd rfl named
    | _ => rfl

theorem toMachineFloat_eq_self {width : RealType} {x : Floating}
    (within : exceeds width.format x = false) :
    let kept := machineFloat width (width.format.cast x)
    kept.toMachineFloat width = .ok kept := by
  have kept := width.proper.cast_kept (exceeds_eq_false_iff.mp within)
  obtain ⟨bounded, fixed⟩ := width.proper.cast_eq_of_kept kept
  have again := exceeds_eq_false_iff.mpr bounded
  change (if exceeds width.format (width.format.cast x) = true then _ else _) = _
  rw [again, if_neg Bool.false_ne_true]
  exact congrArg (fun y => Except.ok (machineFloat width y)) fixed

theorem toKind_eq_self {target : Kind} (made : value.toKind target = .ok result) :
    result.toKind target = .ok result := by
  cases casts_of_toKind made with
  | bool | machineBool | int | float | complex | real | list | tuple => rfl
  | @machineInt width _ n _ held =>
    change (if width.holds n = true then _ else _) = _
    rw [if_pos held]
  | machineFloat _ within => exact toMachineFloat_eq_self within
  | array converted =>
    obtain ⟨-, rfl⟩ | ⟨element, shape, rfl⟩ := toArray_eq_ok converted
    · exact made
    · rfl
  | same => exact made

theorem mapM_convert_eq_self {element : TypeExpr} {items results : List Value}
    (count : items.length = results.length)
    (each : ∀ pair ∈ items.zip results, convert element pair.2 = .ok pair.2) :
    results.mapM (fun item => convert element item) = .ok results :=
  Except.mapM_eq_self (forall_results count each)

theorem kept_or_refused_of_isNil {type : TypeExpr} (absent : type.isNil = true) (value : Value) :
    convert type value = .ok value ∨ value.Refuses type := by
  unfold TypeExpr.isNil at absent
  split at absent
  · simp only [Refuses, convert]
    split
    · exact .inl rfl
    · exact .inr ⟨_, rfl⟩
  · simp only [Refuses, convert, toKind]
    split
    · exact .inl rfl
    · exact .inr ⟨_, rfl⟩
  · cases absent

theorem Converts.eq_of_isNil {type : TypeExpr} (converts : Converts type value result)
    (absent : type.isNil = true) : result = value := by
  unfold TypeExpr.isNil at absent
  split at absent
  · cases converts with
    | none => rfl
    | whatever silent => rfl
  · cases converts with
    | kind made =>
      simp only [toKind] at made
      split at made
      · cases made
        rfl
      · cases made
    | whatever silent => rfl
  · cases absent

theorem Converts.convert_eq_self {type : TypeExpr} {value result : Value}
    (converts : Converts type value result) (only : type.isOptionalOnly = true) :
    convert type result = .ok result := by
  induction converts with
  | none | expression | sequenceOfAll | tuple | tupleOfAll => rfl
  | sequence spelling found =>
    simp only [convert, asSequence?_again found]
  | kind made => exact toKind_eq_self made
  | @sequenceOf spelling element others value items results _ count _ each =>
    have first := (TypeExpr.areOptionalOnly_iff.mp only) element (List.mem_cons_self ..)
    have fixed := mapM_convert_eq_self count fun pair among => each pair among first
    change Value.list <$> results.mapM (fun item => convert element item) = _
    rw [fixed]
    rfl
  | @tupleOf spelling element value items results _ count _ each =>
    have fixed := mapM_convert_eq_self count fun pair among => each pair among only
    change Value.tuple <$> results.mapM (fun item => convert element item) = _
    rw [fixed]
    rfl
  | @tupleExactly spelling elements present value items results _ fits count _ each =>
    have same := fits.trans count
    have fixed : convertEach elements results = .ok results := by
      refine convertEach_eq_self same (forall_typed_results
        (fun type value => convert type value = .ok value) count fun entry among => ?_)
      exact each entry among (TypeExpr.areOptionalOnly_iff.mp only _ (List.of_mem_zip among).1)
    cases elements with
    | nil => exact absurd rfl present
    | cons first others =>
      have fitting : results.length = others.length + 1 := same.symm
      change (if results.length = others.length + 1 then Value.tuple <$> _ else _) = _
      rw [if_pos fitting, fixed]
      rfl
  | @union spelling front member back value result refused chosen holds =>
    obtain ⟨optional, place⟩ := TypeExpr.member_of_isOptionalOnly only
    have again := holds optional
    rw [convert_union_ok_iff, convertFirst_some_iff]
    obtain rfl | ⟨first, rfl, rfl, absent⟩ := place
    · exact ⟨[], member, back, rfl, List.forall_mem_nil _, again⟩
    have passes : result.Refuses first → ∃ front other back,
        [first] ++ [member] = front ++ other :: back ∧ (∀ type ∈ front, result.Refuses type) ∧
          convert other result = .ok result :=
      fun refuses => ⟨[first], member, [], rfl, List.forall_mem_singleton.mpr refuses, again⟩
    rcases absent with none | none
    · obtain kept | refuses := kept_or_refused_of_isNil none result
      · exact ⟨[], first, [member], rfl, List.forall_mem_nil _, kept⟩
      · exact passes refuses
    · -- The value is nil and stays so, and what comes first still refuses it.
      obtain rfl := chosen.eq_of_isNil none
      exact passes (List.forall_mem_singleton.mp refused)
  | callable _ invokable | callableOf _ _ invokable =>
    simp only [convert]
    rw [if_pos invokable]
  | generic _ same =>
    simp only [convert]
    rw [if_pos same]
  | @whatever type silent value =>
    unfold TypeExpr.isSilent at silent
    split at silent
    case h_5 => cases silent
    all_goals rfl

/-- Some adapter has handed the value on as an argument that it declares with the type. -/
def Passed (type : TypeExpr) (value : Value) : Prop :=
  ∃ (adapter : Adapter) (arguments values : List Value) (place : Nat),
    adapter.Runs arguments values ∧ adapter.window.typeAt place = type ∧ values[place]? = some value

theorem Passed.exists_convert {type : TypeExpr} (passed : Passed type value) :
    ∃ given : Value, given.convert type = .ok value := by
  obtain ⟨adapter, arguments, values, place, runs, rfl, found⟩ := passed
  have fits := Adapter.fits_of_runs runs
  have inside : place < arguments.length := fits.count ▸ (List.getElem?_eq_some_iff.mp found).1
  exact ⟨arguments[place], fits.each place _ value (List.getElem?_eq_getElem inside) found⟩

end Value

/-- Where unions only admit nil, as those of optional types do, converting a value again does not change
it. So values that have passed adapters pass another one unchanged that declares the same types for
them. -/
theorem conversion_idempotent :
    (∀ (type : TypeExpr) (value result : Value), type.isOptionalOnly = true →
      value.convert type = .ok result → result.convert type = .ok result) ∧
    (∀ (adapter : Adapter) (values : List Value), adapter.window.Admits values.length →
      (∀ (place : Nat) (value : Value), values[place]? = some value →
        (adapter.window.typeAt place).isOptionalOnly = true ∧
          Value.Passed (adapter.window.typeAt place) value) →
      adapter.Runs values values) ∧
    ∀ type : TypeExpr, type.alternatives = [type] → type.isOptionalOnly = true →
      type.optional.isOptionalOnly = true := by
  have again : ∀ (type : TypeExpr) (value result : Value), type.isOptionalOnly = true →
      value.convert type = .ok result → result.convert type = .ok result :=
    fun type _ _ only converted => (Value.converts_of_convert type converted).convert_eq_self only
  refine ⟨again, fun adapter values admits passed => ?_, fun _ => TypeExpr.isOptionalOnly_optional⟩
  have fits : adapter.window.Fits values values := by
    refine ⟨admits, rfl, fun place value result given found => ?_⟩
    cases given.symm.trans found
    obtain ⟨only, before⟩ := passed place value given
    obtain ⟨origin, converted⟩ := before.exists_convert
    exact again _ origin value only converted
  exact Adapter.runs_of_guard fun run => Window.guard_of_fits run fits

theorem conversion_idempotent_nested :
    let rounded : TypeExpr := .sequenceOf .list [.optional (.kind (.machineFloat .single))]
    let type : TypeExpr := .tupleExactly .tuple [rounded,
      .union .barred [.none, .kind (.machineInt .int8)]]
    let value : Value := .list [.tuple [.int (2 ^ 24 + 1), .nil], .float (.finite 5)]
    let result : Value :=
      .tuple [.list [.machineFloat .single (.finite (2 ^ 24)), .nil], .machineInt .int8 5]
    let first : Adapter := ⟨.native .opt, "opt", .exactly [.kind .int, type]⟩
    let second : Adapter := ⟨.native .opt, "opt", ⟨[], ⟨1, none⟩, type⟩⟩
    value.convert type = .ok result ∧ result.convert type = .ok result ∧
      first.Runs [.float (.finite 7), value] [.int 7, result] ∧
      second.Runs [result, result] [result, result] := by
  intro rounded type value result first second
  obtain ⟨again, unchanged, optional⟩ := conversion_idempotent
  have single : (TypeExpr.optional (.kind (.machineFloat .single))).isOptionalOnly = true :=
    optional _ rfl rfl
  have only : type.isOptionalOnly = true := by
    simp only [type, rounded, TypeExpr.isOptionalOnly, TypeExpr.areOptionalOnly, single]
    rfl
  have converted : value.convert type = .ok result := by rfl
  have fits : first.window.Fits [.float (.finite 7), value] [.int 7, result] :=
    (Window.fits_iff "").mpr ⟨⟨by decide, by decide⟩, rfl⟩
  have runs := Adapter.runs_of_guard fun run => Window.guard_of_fits run fits
  have passed : Value.Passed type result := ⟨first, _, _, 1, runs, rfl, rfl⟩
  refine ⟨converted, again type value result only converted, runs, unchanged second _ ?_ ?_⟩
  · exact ⟨by decide, nofun⟩
  · intro place given found
    have same : given = result := by
      simpa using List.mem_of_getElem? found
    exact same ▸ ⟨only, passed⟩

/-- A union of numbers may round a value to one that an earlier member converts. -/
example :
    let type : TypeExpr := .union .named [.kind .int, .kind (.machineFloat .single)]
    let value : Value := .float (.finite (.ofIntWithPrec (2 ^ 25 + 1) 1))
    let result : Value := .machineFloat .single (.finite (2 ^ 24))
    value.convert type = .ok result ∧ result.convert type = .ok (.int (2 ^ 24)) :=
  ⟨rfl, rfl⟩

end HostLisp
