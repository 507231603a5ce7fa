import HostLisp.Conversion

/-!
The ways in which a conversion succeeds. They are told once, for kinds and for types, and what is kept
by each way is kept by all conversions.
-/

namespace HostLisp

theorem Except.map_eq_ok {ε α β : Type} {f : α → β} {result : Except ε α} {value : β}
    (mapped : f <$> result = .ok value) : ∃ found, result = .ok found ∧ f found = value := by
  cases result with
  | error error => cases mapped
  | ok found =>
    cases mapped
    exact ⟨found, rfl, rfl⟩

theorem Except.mapError_eq_ok {ε δ α : Type} {f : ε → δ} {result : Except ε α} {value : α}
    (mapped : result.mapError f = .ok value) : result = .ok value := by
  cases result with
  | error error => cases mapped
  | ok found =>
    cases mapped
    rfl

theorem Except.bind_eq_ok {ε α β : Type} {result : Except ε α} {next : α → Except ε β} {value : β}
    (bound : (result >>= next) = .ok value) : ∃ found, result = .ok found ∧ next found = .ok value := by
  cases result with
  | error error => cases bound
  | ok found => exact ⟨found, rfl, bound⟩

theorem Except.mapM_eq_ok {ε α β : Type} {f : α → Except ε β} {items : List α} {results : List β}
    (mapped : items.mapM f = .ok results) :
    ∀ result ∈ results, ∃ item ∈ items, f item = .ok result := by
  induction items generalizing results with
  | nil =>
    cases mapped
    exact nofun
  | cons item items ih =>
    rw [List.mapM_cons] at mapped
    obtain ⟨first, made, mapped⟩ := Except.bind_eq_ok mapped
    obtain ⟨others, rest, mapped⟩ := Except.bind_eq_ok mapped
    cases mapped
    intro result among
    rcases List.mem_cons.mp among with rfl | among
    · exact ⟨item, by simp, made⟩
    · obtain ⟨source, inside, made⟩ := ih rest result among
      exact ⟨source, by simp [inside], made⟩

theorem Except.mapM_pairs {ε α β : Type} {f : α → Except ε β} {items : List α} {results : List β}
    (mapped : items.mapM f = .ok results) :
    items.length = results.length ∧ ∀ pair ∈ items.zip results, f pair.1 = .ok pair.2 := by
  induction items generalizing results with
  | nil =>
    cases mapped
    exact ⟨rfl, List.forall_mem_nil _⟩
  | cons item items ih =>
    rw [List.mapM_cons] at mapped
    obtain ⟨first, made, mapped⟩ := Except.bind_eq_ok mapped
    obtain ⟨others, rest, mapped⟩ := Except.bind_eq_ok mapped
    cases mapped
    obtain ⟨count, each⟩ := ih rest
    exact ⟨congrArg (· + 1) count, List.forall_mem_cons.mpr ⟨made, each⟩⟩

def TypeExpr.isSilent : TypeExpr → Bool
  | unannotated => true
  | anything => true
  | object => true
  | .variable _ => true
  | _ => false

namespace Value

theorem toArray_eq_ok {value result : Value} (made : value.toArray = .ok result) :
    (value.kindOf = .array ∧ result = value) ∨
      ∃ element shape, result = array element shape (value.leaves.map element.element) {} := by
  unfold toArray at made
  split at made
  · cases made
    exact .inl ⟨rfl, rfl⟩
  · simp only at made
    split at made
    · cases made
    split at made
    · cases made
    · cases made
      exact .inr ⟨_, _, rfl⟩

theorem asSequence?_eq_some {value result : Value} {spelling : TypeExpr.SequenceForm}
    (found : value.asSequence? spelling = some result) :
    (spelling = .abstractSequence ∧ result = value ∧ value.kindOf ∈ [.list, .tuple, .text]) ∨
      spelling ≠ .abstractSequence ∧ ∃ items, value.items? = some items ∧ result = list items := by
  unfold asSequence? at found
  split at found
  · split at found
    all_goals cases found
    all_goals exact .inl ⟨rfl, rfl, by simp [kindOf]⟩
  · next other =>
    obtain ⟨items, listed, rfl⟩ := Option.map_eq_some_iff.mp found
    exact .inr ⟨other, items, listed, rfl⟩

/-- The ways in which a value is converted to a kind. -/
inductive Casts : Kind → Value → Value → Prop where
  | bool {value : Value} {b : Bool} (given : value = .bool b ∨ value = .machineBool b) :
      Casts .bool value (bool b)
  | machineBool {value : Value} {b : Bool} (given : value = .bool b ∨ value = .machineBool b) :
      Casts .machineBool value (machineBool b)
  | int {value : Value} {n : Int} (whole : value.quantity?.bind Quantity.toInt? = some n) :
      Casts .int value (int n)
  | machineInt {width : IntegerType} {value : Value} {n : Int}
      (whole : value.quantity?.bind Quantity.toInt? = some n) (held : width.holds n = true) :
      Casts (.machineInt width) value (machineInt width n)
  | float {value : Value} {x : Floating} (floats : value.toFloating (.kind .float) = .ok x) :
      Casts .float value (float x)
  | machineFloat {width : RealType} {value : Value} {x : Floating}
      (floats : value.toFloating (.kind (.machineFloat width)) = .ok x)
      (within : exceeds width.format x = false) :
      Casts (.machineFloat width) value (machineFloat width (width.format.cast x))
  | complex (re im : Floating) : Casts .complex (complex re im) (complex re im)
  | real {value : Value} {x : Floating} (floats : value.toFloating (.kind .complex) = .ok x) :
      Casts .complex value (complex x (.finite 0))
  | array {value result : Value} (made : value.toArray = .ok result) : Casts .array value result
  | list {value : Value} {items : List Value} (found : value.items? = some items) :
      Casts .list value (list items)
  | tuple {value : Value} {items : List Value} (found : value.items? = some items) :
      Casts .tuple value (tuple items)
  | same {target : Kind} {value : Value} (alike : value.kindOf = target)
      (integer : ∀ width, target ≠ .machineInt width) (real : ∀ width, target ≠ .machineFloat width) :
      Casts target value value

theorem casts_of_toMachineInt {value result : Value} {width : IntegerType}
    (made : value.toMachineInt width = .ok result) : Casts (.machineInt width) value result := by
  unfold toMachineInt at made
  split at made
  · cases made
  · next n whole =>
    split at made
    · next held =>
      cases made
      exact .machineInt whole held
    · split at made <;> cases made

theorem casts_of_toMachineFloat {value result : Value} {width : RealType}
    (made : value.toMachineFloat width = .ok result) : Casts (.machineFloat width) value result := by
  unfold toMachineFloat at made
  obtain ⟨quantity, found, made⟩ := Except.bind_eq_ok made
  obtain ⟨x, doubled, made⟩ := Except.bind_eq_ok made
  split at made
  · cases made
  · next within =>
    cases made
    have floats : value.toFloating (.kind (.machineFloat width)) = .ok x := by
      rw [toFloating, found]
      exact doubled
    exact .machineFloat floats (eq_false_of_ne_true within)

theorem casts_of_toKind {value result : Value} {target : Kind}
    (made : value.toKind target = .ok result) : Casts target value result := by
  unfold toKind at made
  split at made
  case h_1 | h_2 =>
    cases made
    exact .bool (by simp)
  case h_3 | h_4 =>
    cases made
    exact .machineBool (by simp)
  case h_5 => exact casts_of_toMachineInt made
  case h_6 => exact casts_of_toMachineFloat made
  case h_7 =>
    split at made
    · next whole =>
      cases made
      exact .int whole
    · cases made
  case h_8 =>
    obtain ⟨x, floats, rfl⟩ := Except.map_eq_ok made
    exact .float floats
  case h_9 =>
    cases made
    exact .complex _ _
  case h_10 =>
    obtain ⟨x, floats, rfl⟩ := Except.map_eq_ok made
    exact .real floats
  case h_11 =>
    split at made
    case h_4 => cases made
    all_goals exact .array (Except.mapError_eq_ok made)
  case h_12 | h_13 =>
    split at made
    · next found =>
      cases made
      constructor
      exact found
    · cases made
  case h_14 =>
    split at made
    · next alike =>
      cases made
      exact .same alike (by assumption) (by assumption)
    · cases made

/-- The ways in which a value is converted to a type. Items are converted in order; of the members of
a union the first one that does not refuse the value converts it. -/
inductive Converts : TypeExpr → Value → Value → Prop where
  | none : Converts .none nil nil
  | kind {target : Kind} {value result : Value} (made : value.toKind target = .ok result) :
      Converts (.kind target) value result
  | expression (expr : Expr) : Converts .expression (code expr) (code expr)
  | sequence (spelling : TypeExpr.SequenceForm) {value result : Value}
      (found : value.asSequence? spelling = some result) : Converts (.sequence spelling) value result
  | sequenceOfAll (spelling : TypeExpr.SequenceForm) {value : Value} {items : List Value}
      (found : value.items? = some items) : Converts (.sequenceOf spelling []) value (list items)
  | sequenceOf (spelling : TypeExpr.SequenceForm) {element : TypeExpr} (others : List TypeExpr)
      {value : Value} {items results : List Value} (found : value.items? = some items)
      (count : items.length = results.length)
      (each : ∀ pair ∈ items.zip results, Converts element pair.1 pair.2) :
      Converts (.sequenceOf spelling (element :: others)) value (list results)
  | tuple (spelling : TypeExpr.TupleForm) {value : Value} {items : List Value}
      (found : value.items? = some items) : Converts (.tuple spelling) value (tuple items)
  | tupleOf (spelling : TypeExpr.TupleForm) {element : TypeExpr} {value : Value}
      {items results : List Value} (found : value.items? = some items)
      (count : items.length = results.length)
      (each : ∀ pair ∈ items.zip results, Converts element pair.1 pair.2) :
      Converts (.tupleOf spelling element) value (tuple results)
  | tupleOfAll (spelling : TypeExpr.TupleForm) {value : Value} {items : List Value}
      (found : value.items? = some items) : Converts (.tupleExactly spelling []) value (tuple items)
  | tupleExactly (spelling : TypeExpr.TupleForm) {elements : List TypeExpr} (present : elements ≠ [])
      {value : Value} {items results : List Value} (found : value.items? = some items)
      (fits : elements.length = items.length) (count : items.length = results.length)
      (each : ∀ entry ∈ elements.zip (items.zip results), Converts entry.1 entry.2.1 entry.2.2) :
      Converts (.tupleExactly spelling elements) value (tuple results)
  | union (spelling : TypeExpr.UnionForm) {front : List TypeExpr} {member : TypeExpr}
      (back : List TypeExpr) {value result : Value}
      (refused : ∀ type ∈ front, ∃ refusal, convert type value = .error (.refused refusal))
      (chosen : Converts member value result) :
      Converts (.union spelling (front ++ member :: back)) value result
  | callable (spelling : TypeExpr.CallableForm) {value : Value} (invokable : value.isInvokable = true) :
      Converts (.callable spelling) value value
  | callableOf (arguments : List TypeExpr) (result : TypeExpr) {value : Value}
      (invokable : value.isInvokable = true) : Converts (.callableOf arguments result) value value
  | generic {origin : Kind} (arguments : List TypeExpr) {value : Value} (same : value.kindOf = origin) :
      Converts (.generic origin arguments) value value
  | whatever {type : TypeExpr} (silent : type.isSilent = true) (value : Value) :
      Converts type value value

mutual

theorem converts_of_convert : ∀ (type : TypeExpr) {value result : Value},
    convert type value = .ok result → Converts type value result
  | .unannotated, value, result, converted | .anything, value, result, converted
  | .object, value, result, converted | .variable _, value, result, converted => by
    simp only [convert] at converted
    cases converted
    exact .whatever rfl value
  | .kind target, value, result, converted => by
    simp only [convert] at converted
    exact .kind converted
  | .none, value, result, converted | .expression, value, result, converted
  | .callable _, value, result, converted | .callableOf _ _, value, result, converted
  | .generic _ _, value, result, converted => by
    simp only [convert] at converted
    split at converted
    · cases converted
      constructor
      all_goals assumption
    · cases converted
  | .sequence _, value, result, converted | .sequenceOf _ [], value, result, converted
  | .tuple _, value, result, converted | .tupleExactly _ [], value, result, converted => by
    simp only [convert] at converted
    split at converted
    · next found =>
      cases converted
      constructor
      exact found
    · cases converted
  | .sequenceOf _ (element :: _), value, result, converted
  | .tupleOf _ element, value, result, converted => by
    simp only [convert] at converted
    split at converted
    · next found =>
      obtain ⟨results, mapped, rfl⟩ := Except.map_eq_ok converted
      obtain ⟨count, each⟩ := Except.mapM_pairs mapped
      have converts := fun pair among => converts_of_convert element (each pair among)
      constructor
      · exact found
      · exact count
      · exact converts
    · cases converted
  | .tupleExactly spelling (first :: others), value, result, converted => by
    simp only [convert] at converted
    split at converted
    · next items found =>
      split at converted
      · next fits =>
        obtain ⟨results, made, rfl⟩ := Except.map_eq_ok converted
        have same : (first :: others).length = items.length := fits.symm
        obtain ⟨count, each⟩ := converts_of_convertEach (first :: others) same made
        exact .tupleExactly spelling (List.cons_ne_nil _ _) found same count each
      · cases converted
    · cases converted
  | .union spelling members, value, result, converted => by
    simp only [convert] at converted
    split at converted
    · next found =>
      cases converted
      obtain ⟨front, member, back, rfl, refused, chosen⟩ := converts_of_convertFirst members found
      exact .union spelling back refused chosen
    · cases converted
    · cases converted
  | .literal _, value, result, converted | .annotated _ _, value, result, converted => by
    simp only [convert] at converted
    cases converted

theorem converts_of_convertEach : ∀ (types : List TypeExpr) {values results : List Value},
    types.length = values.length → convertEach types values = .ok results →
    values.length = results.length ∧
      ∀ entry ∈ types.zip (values.zip results), Converts entry.1 entry.2.1 entry.2.2
  | [], values, results, fits, converted => by
    simp only [convertEach] at converted
    cases converted
    exact ⟨fits.symm, List.forall_mem_nil _⟩
  | type :: types, [], results, fits, converted => by cases fits
  | type :: types, value :: values, results, fits, converted => by
    simp only [convertEach] at converted
    obtain ⟨first, made, converted⟩ := Except.bind_eq_ok converted
    obtain ⟨others, rest, converted⟩ := Except.bind_eq_ok converted
    cases converted
    obtain ⟨count, each⟩ := converts_of_convertEach types (Nat.succ.inj fits) rest
    exact ⟨congrArg (· + 1) count,
      List.forall_mem_cons.mpr ⟨converts_of_convert type made, each⟩⟩

theorem converts_of_convertFirst : ∀ (types : List TypeExpr) {value result : Value},
    convertFirst types value = .ok (some result) →
    ∃ front member back, types = front ++ member :: back ∧
      (∀ type ∈ front, ∃ refusal, convert type value = .error (.refused refusal)) ∧
      Converts member value result
  | [], value, result, converted => by
    simp only [convertFirst] at converted
    cases converted
  | type :: types, value, result, converted => by
    simp only [convertFirst] at converted
    split at converted
    · next made =>
      cases converted
      exact ⟨[], type, types, rfl, List.forall_mem_nil _, converts_of_convert type made⟩
    · next refusal refuses =>
      obtain ⟨front, member, back, rfl, refused, chosen⟩ := converts_of_convertFirst types converted
      exact ⟨type :: front, member, back, rfl,
        List.forall_mem_cons.mpr ⟨⟨refusal, refuses⟩, refused⟩, chosen⟩
    · cases converted

end

theorem forall_results {items results : List Value} {holds : Value → Prop}
    (count : items.length = results.length) (each : ∀ pair ∈ items.zip results, holds pair.2) :
    ∀ result ∈ results, holds result := by
  intro result inside
  rw [← List.map_snd_zip (Nat.le_of_eq count.symm)] at inside
  obtain ⟨pair, among, rfl⟩ := List.mem_map.mp inside
  exact each pair among

theorem forall_typed_results (holds : TypeExpr → Value → Prop) {types : List TypeExpr}
    {items results : List Value} (count : items.length = results.length)
    (each : ∀ entry ∈ types.zip (items.zip results), holds entry.1 entry.2.2) :
    ∀ pair ∈ types.zip results, holds pair.1 pair.2 := by
  intro pair inside
  rw [← List.map_snd_zip (Nat.le_of_eq count.symm), List.zip_map_right] at inside
  obtain ⟨entry, among, rfl⟩ := List.mem_map.mp inside
  exact each entry among

theorem forall_pairs (holds : Value × Value → Prop) {types : List TypeExpr} {items results : List Value}
    (fits : types.length = items.length)
    (each : ∀ entry ∈ types.zip (items.zip results), holds entry.2) :
    ∀ pair ∈ items.zip results, holds pair := by
  intro pair inside
  have places : (items.zip results).length ≤ types.length := by
    rw [List.length_zip]
    omega
  rw [← List.map_snd_zip places] at inside
  obtain ⟨entry, among, rfl⟩ := List.mem_map.mp inside
  exact each entry among

end Value

end HostLisp
