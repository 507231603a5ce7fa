import HostLisp.Proofs.Procedures
import HostLisp.Proofs.Ways

/-!
What values are made of, and what becomes of it. Parts of values are reached through collections,
through quoted code and the values held in it, through the bodies of closures, and through what adapters
and operators wrap. Conversions and the functions of the catalogue take values apart and put the pieces
together in other ways, but every closure in a result was in an argument.
-/

namespace HostLisp

def Expr.pieces : Expr → List Value
  | list items => items.map .code
  | vector items => items.map .code
  | program forms => forms.map .code
  | quote body => [.code body]
  | value held _ => [held]
  | _ => []

namespace Value

def pieces : Value → List Value
  | list items => items
  | tuple items => items
  | array _ _ items _ => items
  | code expr => expr.pieces
  | closure _ body _ _ => body.map code
  | operative function _ _ => [function]
  | adapter function _ _ _ => [function]
  | _ => []

/-- A value is found in another one at some depth. -/
inductive Inside (part : Value) : Value → Prop where
  | whole : Inside part part
  | deeper {value piece : Value} (among : piece ∈ value.pieces) (inside : Inside part piece) :
      Inside part value

def captured? : Value → Option ScopeId
  | closure _ _ around _ => around
  | scope id => some id
  | _ => none

def Captures (value : Value) : Prop := value.captured?.isSome = true

/-- Scopes, closures and number literals: what evaluation makes in few ways. -/
def isRare : Value → Bool
  | scope _ => true
  | closure _ _ _ _ => true
  | code (.number _ _) => true
  | _ => false

/-- Everything of a sort that is found in a value is found in given values. -/
def Drawn (sort : Value → Prop) (given : List Value) (value : Value) : Prop :=
  ∀ part, Inside part value → sort part → ∃ source ∈ given, Inside part source

variable {sort : Value → Prop} {given : List Value} {value : Value}

theorem Inside.trans {part inner : Value} (within : Inside inner value) (inside : Inside part inner) :
    Inside part value := by
  induction within with
  | whole => exact inside
  | deeper among _ ih => exact .deeper among ih

namespace Drawn

theorem of_mem (among : value ∈ given) : Drawn sort given value :=
  fun _ inside _ => ⟨value, among, inside⟩

theorem trans {more : List Value} (drawn : Drawn sort given value)
    (each : ∀ source ∈ given, Drawn sort more source) : Drawn sort more value := by
  intro part inside sorted
  obtain ⟨source, among, within⟩ := drawn part inside sorted
  exact each source among part within sorted

theorem weaken {more : List Value} (drawn : Drawn sort given value) (larger : given ⊆ more) :
    Drawn sort more value :=
  drawn.trans fun _ among => of_mem (larger among)

theorem still (drawn : Drawn sort given value) {more : List Value} : Drawn sort (more ++ given) value :=
  drawn.weaken (List.subset_append_right more given)

theorem inside (drawn : Drawn sort given value) {inner : Value} (within : Inside inner value) :
    Drawn sort given inner :=
  fun part deeper => drawn part (within.trans deeper)

theorem piece (drawn : Drawn sort given value) {piece : Value} (among : piece ∈ value.pieces) :
    Drawn sort given piece :=
  drawn.inside (.deeper among .whole)

theorem of_pieces (other : ¬sort value) (each : ∀ piece ∈ value.pieces, Drawn sort given piece) :
    Drawn sort given value := by
  intro part inside sorted
  cases inside with
  | whole => exact absurd sorted other
  | deeper among inside => exact each _ among part inside sorted

end Drawn

end Value

open Value

/-- Everything of the sort is rare, so what is not rare can be made of any pieces. -/
def Rare (sort : Value → Prop) : Prop := ∀ value, sort value → value.isRare = true

namespace Rare

variable {sort : Value → Prop} (rare : Rare sort) {given : List Value}
include rare

theorem drawn {value : Value} (common : value.isRare = false)
    (each : ∀ piece ∈ value.pieces, Drawn sort given piece) : Drawn sort given value := by
  refine .of_pieces (fun sorted => ?_) each
  rw [rare value sorted] at common
  cases common

theorem leaf {value : Value} (common : value.isRare = false) (leaf : value.pieces = []) :
    Drawn sort given value :=
  rare.drawn common (by simp [leaf])

theorem call {items : List Expr} (each : ∀ item ∈ items, Drawn sort given (.code item)) :
    Drawn sort given (.code (.list items)) :=
  rare.drawn rfl (List.forall_mem_map.mpr each)

theorem held {value : Value} (drawn : Drawn sort given value) (stamp : Stamp) :
    Drawn sort given (.code (.value value stamp)) :=
  rare.drawn rfl (List.forall_mem_singleton.mpr drawn)

theorem stamped {value : Value} (drawn : Drawn sort given value) (stamp : Stamp) :
    Drawn sort given (value.stamped stamp) := by
  cases value with
  | float x => exact rare.leaf rfl rfl
  | machineFloat type x => exact rare.leaf rfl rfl
  | complex re im => exact rare.leaf rfl rfl
  | array element shape items old => exact rare.drawn rfl fun _ among => drawn.piece among
  | _ => exact drawn

end Rare

namespace Eval

variable {α β : Type}

def Gives (good : α → Prop) (act : Eval α) : Prop :=
  ∀ state value, (act.outcome state).1 = .ok value → good value

variable {good : α → Prop}

theorem gives_pure {value : α} (holds : good value) : Gives good (pure value) := by
  rintro _ _ ⟨⟩
  exact holds

theorem gives_fail (failure : Failure) : Gives good (fail failure) := nofun

theorem gives_crash (cause : Crash) : Gives good (crash cause) := nofun

theorem Gives.andThen {act : Eval α} {next : α → Eval β} {better : β → Prop} (first : Gives good act)
    (rest : ∀ value, good value → Gives better (next value)) : Gives better (act >>= next) := by
  intro state result given
  have earlier := first state
  rcases ran : act.outcome state with ⟨(_ | value), after⟩
  · rw [outcome_bind_error ran] at given
    cases given
  · rw [ran] at earlier
    rw [outcome_bind_ok ran] at given
    exact rest value (earlier value rfl) after result given

theorem gives_anything (act : Eval α) : Gives (fun _ => True) act := fun _ _ _ => trivial

theorem gives_ofExcept {ε : Type} {fault : ε → Fault} {result : Except ε α}
    (holds : ∀ value, result = .ok value → good value) : Gives good (ofExcept fault result) := by
  intro state value given
  rw [outcome_ofExcept] at given
  cases result with
  | error error => cases given
  | ok found =>
    cases given
    exact holds _ rfl

theorem gives_unlessFlawed (flaw : Option Flaw) {act : Eval α} (rest : Gives good act) :
    Gives good (unlessFlawed flaw act) := by
  cases flaw with
  | none => exact rest
  | some flaw => exact gives_crash _

theorem gives_ite {condition : Prop} [Decidable condition] {first second : Eval α}
    (yes : Gives good first) (no : Gives good second) :
    Gives good (if condition then first else second) := by
  split
  · exact yes
  · exact no

theorem gives_mapM {act : α → Eval β} {better : β → Prop} (items : List α)
    (each : ∀ item ∈ items, Gives better (act item)) :
    Gives (fun results => ∀ result ∈ results, better result) (items.mapM act) := by
  induction items with
  | nil => exact gives_pure (by simp)
  | cons item items ih =>
    rw [List.mapM_cons]
    refine (each item (by simp)).andThen fun first holds => ?_
    refine (ih fun other among => each other (by simp [among])).andThen fun others hold => ?_
    exact gives_pure (by simpa using ⟨holds, hold⟩)

theorem gives_fresh {sort : Value → Prop} (rare : Rare sort) {given : List Value} {value : Value}
    (drawn : Drawn sort given value) : Gives (Drawn sort given) (fresh value) := by
  unfold fresh
  split
  · exact (gives_anything stamp).andThen fun stamp _ => gives_pure (rare.stamped drawn stamp)
  · exact gives_pure drawn

end Eval

/-! ### Arrays, loops and comparisons -/

theorem Shape.mem_of_mem_parts {α : Type} {size count : Nat} {items part : List α} {item : α}
    (among : part ∈ parts size count items) (inside : item ∈ part) : item ∈ items := by
  induction count generalizing items with
  | zero => cases among
  | succ count ih =>
    rcases List.mem_cons.mp among with rfl | among
    · exact List.mem_of_mem_take inside
    · exact List.mem_of_mem_drop (ih among)

namespace Value

mutual

theorem inside_of_mem_leaves {leaf : Value} :
    ∀ value : Value, leaf ∈ value.leaves → Inside leaf value
  | list items, among => by
    obtain ⟨item, inside, deeper⟩ := inside_of_mem_leavesAll items (by simpa [leaves] using among)
    exact .deeper inside deeper
  | tuple items, among => by
    obtain ⟨item, inside, deeper⟩ := inside_of_mem_leavesAll items (by simpa [leaves] using among)
    exact .deeper inside deeper
  | array _ _ items _, among => .deeper (by simpa [leaves, pieces] using among) .whole
  | nil, among | bool _, among | float _, among | int _, among | complex _ _, among | text _, among
  | dict, among | machineBool _, among | machineInt _ _, among | machineFloat _ _, among
  | code _, among | closure _ _ _ _, among | form _, among | operative _ _ _, among
  | native _, among | adapter _ _ _ _, among | kind _, among | scope _, among
  | picture _ _ _, among => by
    obtain rfl : leaf = _ := by simpa [leaves] using among
    exact .whole

theorem inside_of_mem_leavesAll {leaf : Value} :
    ∀ values : List Value, leaf ∈ leavesAll values → ∃ value ∈ values, Inside leaf value
  | [], among => by simp [leavesAll] at among
  | value :: values, among => by
    rw [leavesAll, List.mem_append] at among
    rcases among with here | later
    · exact ⟨value, by simp, inside_of_mem_leaves value here⟩
    · obtain ⟨other, inside, deeper⟩ := inside_of_mem_leavesAll values later
      exact ⟨other, by simp [inside], deeper⟩

end

section

variable {sort : Value → Prop} (rare : Rare sort) {given : List Value} {value : Value}
include rare

theorem drawn_element (element : ElementType) {leaf : Value} (drawn : Drawn sort given leaf) :
    Drawn sort given (element.element leaf) := by
  unfold ElementType.element
  split
  all_goals first | exact drawn | exact rare.leaf rfl rfl

theorem drawn_toArray (drawn : Drawn sort given value) {result : Value}
    (made : value.toArray = .ok result) : Drawn sort given result := by
  obtain ⟨-, rfl⟩ | ⟨element, shape, rfl⟩ := toArray_eq_ok made
  · exact drawn
  · refine rare.drawn rfl fun piece among => ?_
    obtain ⟨leaf, inside, rfl⟩ := List.mem_map.mp among
    exact drawn_element rare _ (drawn.inside (inside_of_mem_leaves value inside))

theorem drawn_ofElement (element : ElementType) {item : Value} (drawn : Drawn sort given item) :
    Drawn sort given (ofElement element item) := by
  unfold ofElement
  split
  all_goals first | exact drawn | exact rare.leaf rfl rfl

theorem drawn_slices (element : ElementType) (shape : Shape) {items : List Value}
    (drawn : ∀ item ∈ items, Drawn sort given item) :
    ∀ item ∈ slices element shape items, Drawn sort given item := by
  intro item among
  unfold slices at among
  split at among
  · cases among
  · obtain ⟨source, inside, rfl⟩ := List.mem_map.mp among
    exact drawn_ofElement rare element (drawn source inside)
  · obtain ⟨part, inside, rfl⟩ := List.mem_map.mp among
    exact rare.drawn rfl fun piece within => drawn piece (Shape.mem_of_mem_parts inside within)

theorem drawn_iterate (drawn : Drawn sort given value) {items : List Value}
    (visits : value.iterate = .ok items) : ∀ item ∈ items, Drawn sort given item := by
  unfold iterate at visits
  split at visits
  all_goals cases visits
  · exact fun _ among => drawn.piece among
  · exact fun _ among => drawn.piece among
  · exact nofun
  · intro item among
    obtain ⟨c, -, rfl⟩ := List.mem_map.mp among
    exact rare.leaf rfl rfl
  · exact drawn_slices rare _ _ fun _ among => drawn.piece among

omit rare in
theorem mem_of_greatestFrom {best result : Value} {values : List Value}
    (found : greatestFrom best values = .ok result) : result ∈ best :: values := by
  induction values generalizing best with
  | nil =>
    cases found
    exact List.mem_singleton_self _
  | cons value values ih =>
    unfold greatestFrom at found
    split at found
    · exact List.mem_cons_of_mem best (ih found)
    · rcases List.mem_cons.mp (ih found) with rfl | later
      · exact List.mem_cons_self
      · exact List.mem_cons_of_mem _ (List.mem_cons_of_mem _ later)
    · cases found

theorem drawn_greatest {arguments : List Value} (drawn : ∀ value ∈ arguments, Drawn sort given value)
    {result : Value} (found : greatest arguments = .ok result) : Drawn sort given result := by
  unfold greatest at found
  split at found
  · cases found
  · obtain ⟨items, visits, found⟩ := Except.bind_eq_ok found
    have each := drawn_iterate rare (drawn _ (by simp)) visits
    split at found
    · cases found
    · exact each result (mem_of_greatestFrom found)
  · exact drawn result (mem_of_greatestFrom found)

theorem drawn_elementwise {comparison : Comparison} {a b result : Value}
    (compared : elementwise comparison a b = .ok result) : Drawn sort given result := by
  unfold elementwise at compared
  obtain ⟨x, -, compared⟩ := Except.bind_eq_ok compared
  obtain ⟨y, -, compared⟩ := Except.bind_eq_ok compared
  simp only at compared
  split at compared
  · cases compared
  split at compared
  · cases compared
  obtain ⟨results, mapped, compared⟩ := Except.bind_eq_ok compared
  cases compared
  refine rare.drawn rfl fun item among => ?_
  obtain ⟨pair, -, made⟩ := Except.mapM_eq_ok mapped item among
  split at made
  · cases made
    exact rare.leaf rfl rfl
  · obtain ⟨_, -, rfl⟩ := Except.map_eq_ok made
    exact rare.leaf rfl rfl

theorem drawn_machineEquality {a b result : Value} (compared : machineEquality a b = .ok result) :
    Drawn sort given result := by
  unfold machineEquality at compared
  split at compared
  · exact drawn_elementwise rare compared
  split at compared
  · obtain ⟨_, -, rfl⟩ := Except.map_eq_ok compared
    exact rare.leaf rfl rfl
  · obtain ⟨_, -, rfl⟩ := Except.map_eq_ok compared
    exact rare.leaf rfl rfl
  · cases compared
    exact rare.leaf rfl rfl

theorem drawn_unlikeEquality {a b result : Value} (compared : unlikeEquality a b = .ok result) :
    Drawn sort given result := by
  unfold unlikeEquality at compared
  split at compared
  · cases compared
    exact rare.leaf rfl rfl
  split at compared
  · exact drawn_machineEquality rare compared
  split at compared
  · exact drawn_machineEquality rare compared
  · cases compared
    exact rare.leaf rfl rfl

theorem drawn_equality {a b result : Value} (compared : equality a b = .ok result) :
    Drawn sort given result := by
  unfold equality at compared
  split at compared
  · split at compared
    · obtain ⟨_, -, rfl⟩ := Except.map_eq_ok compared
      exact rare.leaf rfl rfl
    · cases compared
      exact rare.leaf rfl rfl
  · obtain ⟨_, -, rfl⟩ := Except.map_eq_ok compared
    exact rare.leaf rfl rfl
  · exact drawn_unlikeEquality rare compared

end

/-! ### Conversions -/

section

variable {sort : Value → Prop} (rare : Rare sort) {given : List Value} {value : Value}
include rare

omit rare in
theorem drawn_items (drawn : Drawn sort given value) {items : List Value}
    (found : value.items? = some items) : ∀ item ∈ items, Drawn sort given item := by
  unfold items? at found
  split at found
  all_goals cases found
  all_goals exact fun _ among => drawn.piece among

theorem Casts.drawn {target : Kind} {result : Value} (casts : Casts target value result)
    (drawn : Drawn sort given value) : Drawn sort given result := by
  cases casts with
  | array made => exact drawn_toArray rare drawn made
  | list found | tuple found => exact rare.drawn rfl (drawn_items drawn found)
  | same => exact drawn
  | _ => exact rare.leaf rfl rfl

theorem Converts.drawn {type : TypeExpr} {result : Value} (converts : Converts type value result)
    (drawn : Drawn sort given value) : Drawn sort given result := by
  induction converts with
  | none | expression | callable | callableOf | generic | whatever => exact drawn
  | kind made => exact (casts_of_toKind made).drawn rare drawn
  | sequence _ found =>
    obtain ⟨-, rfl, -⟩ | ⟨-, items, listed, rfl⟩ := asSequence?_eq_some found
    · exact drawn
    · exact rare.drawn rfl (drawn_items drawn listed)
  | sequenceOfAll _ found | tuple _ found | tupleOfAll _ found =>
    exact rare.drawn rfl (drawn_items drawn found)
  | sequenceOf _ _ found count _ each | tupleOf _ found count _ each =>
    have items := drawn_items drawn found
    exact rare.drawn rfl
      (forall_results count fun pair among => each pair among (items _ (List.of_mem_zip among).1))
  | tupleExactly _ _ found fits count _ each =>
    have items := drawn_items drawn found
    have results := forall_pairs (fun pair => Drawn sort given pair.2) fits
      fun entry among => each entry among (items _ (List.of_mem_zip (List.of_mem_zip among).2).1)
    exact rare.drawn rfl (forall_results count results)
  | union _ _ _ _ chosen => exact chosen drawn

end

end Value

theorem Window.drawn_convertFrom {sort : Value → Prop} (rare : Rare sort) {given : List Value}
    (window : Window) (name : String) {index : Nat} {arguments results : List Value}
    (drawn : ∀ value ∈ arguments, Drawn sort given value)
    (converted : window.convertFrom name index arguments = .ok results) :
    ∀ result ∈ results, Drawn sort given result := by
  induction arguments generalizing index results with
  | nil =>
    cases converted
    exact nofun
  | cons value values ih =>
    unfold Window.convertFrom at converted
    split at converted
    · next first made =>
      obtain ⟨others, rest, rfl⟩ := Except.map_eq_ok converted
      intro result among
      rcases List.mem_cons.mp among with rfl | among
      · exact (converts_of_convert _ made).drawn rare (drawn value List.mem_cons_self)
      · exact ih (fun other inside => drawn other (List.mem_cons_of_mem _ inside)) rest result among
    · cases converted
    · cases converted

/-! ### Constructions and the functions of the catalogue -/

section

variable {sort : Value → Prop} (rare : Rare sort)
include rare

theorem Kind.gives_visited {given : List Value} {value : Value} (drawn : Drawn sort given value) :
    (Kind.visited value).Gives fun items => ∀ item ∈ items, Drawn sort given item := by
  unfold Kind.visited
  have visits : (Native.ofExcept value.iterate).Gives fun items =>
      ∀ item ∈ items, Drawn sort given item :=
    Eval.gives_ofExcept fun _ visits => drawn_iterate rare drawn visits
  refine visits.andThen fun items each => ?_
  split
  · exact Eval.gives_mapM items fun item among => Eval.gives_fresh rare (each item among)
  · exact Eval.gives_pure each

theorem Native.gives_equality {given : List Value} (a b : Value) :
    (Native.ofExcept (a.equality b)).Gives (Drawn sort given) :=
  Eval.gives_ofExcept fun _ compared => drawn_equality rare compared

theorem Native.gives_greatest (arguments : List Value) :
    (Native.ofExcept (Value.greatest arguments)).Gives (Drawn sort arguments) :=
  Eval.gives_ofExcept fun _ found => drawn_greatest rare (fun _ among => .of_mem among) found

theorem Native.drawn_sizes {given : List Value} (sizes : Shape) :
    Drawn sort given (.list (sizes.map fun (size : Nat) => .int size)) := by
  refine rare.drawn rfl fun piece among => ?_
  obtain ⟨size, -, rfl⟩ := List.mem_map.mp among
  exact rare.leaf rfl rfl

theorem Native.drawn_pair {given : List Value} {a b : Value} (first : Drawn sort given a)
    (second : Drawn sort given b) : Drawn sort given (.list [a, b]) :=
  rare.drawn rfl (List.forall_mem_cons.mpr ⟨first, List.forall_mem_singleton.mpr second⟩)

theorem Native.gives_compute (native : Native) (arguments : List Value) :
    (native.compute arguments).Gives (Drawn sort arguments) := by
  unfold Native.compute
  split
  all_goals with_reducible first
    | exact Eval.gives_crash _
    | exact Eval.gives_fail _
    | refine Eval.gives_pure ?_
    | refine Eval.gives_fresh rare ?_
    | refine Eval.gives_ite (Eval.gives_crash _) (Eval.gives_fresh rare ?_)
    | exact Native.gives_greatest rare _
    | exact (Native.gives_greatest rare _).andThen fun _ drawn =>
        Eval.gives_ite (Eval.gives_fresh rare drawn) (Eval.gives_pure drawn)
    | exact (Native.gives_equality rare _ _).andThen fun _ drawn => Eval.gives_fresh rare drawn
    | refine (Eval.gives_anything _).andThen fun _ _ => Eval.gives_pure ?_
  -- What is left are the values that they give: plain data, an argument, or a list of such.
  all_goals first
    | exact rare.leaf rfl rfl
    | exact .of_mem List.mem_cons_self
    | exact rare.drawn rfl fun _ among => .of_mem among
    | exact Native.drawn_sizes rare _
    | exact Native.drawn_pair rare (.of_mem List.mem_cons_self) (rare.leaf rfl rfl)
    | exact Native.drawn_pair rare (rare.leaf rfl rfl) (.of_mem List.mem_cons_self)
    | exact rare.drawn rfl (List.forall_mem_singleton.mpr (rare.leaf rfl rfl))

end

theorem Value.eq_code_of_expr? {value : Value} {expr : Expr} (taken : value.expr? = some expr) :
    value = .code expr := by
  unfold expr? at taken
  split at taken
  · cases taken
    rfl
  · cases taken

theorem Value.eq_map_code_of_mapM {items : List Value} {exprs : List Expr}
    (taken : items.mapM expr? = some exprs) : items = exprs.map code := by
  induction items generalizing exprs with
  | nil =>
    cases taken
    rfl
  | cons item items ih =>
    rw [List.mapM_cons] at taken
    obtain ⟨expr, first, taken⟩ := Option.bind_eq_some_iff.mp taken
    obtain ⟨others, rest, taken⟩ := Option.bind_eq_some_iff.mp taken
    cases taken
    rw [List.map_cons, ← eq_code_of_expr? first, ← ih rest]

end HostLisp
