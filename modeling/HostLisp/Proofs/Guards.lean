import HostLisp.Proofs.Unions

/-!
Guards of host functions. A call either runs the function, once and on all arguments in the types of
their places, or it does nothing but fail: by the number of the arguments before anything else, and
otherwise by the first argument that does not fit.
-/

namespace HostLisp

namespace Window

def Admits (window : Window) (count : Nat) : Prop :=
  window.arity.least ≤ count ∧ ∀ most, window.arity.most = some most → count ≤ most

structure Fits (window : Window) (arguments converted : List Value) : Prop where
  admits : window.Admits arguments.length
  count : arguments.length = converted.length
  each : ∀ (index : Nat) (value result : Value), arguments[index]? = some value →
    converted[index]? = some result → value.convert (window.typeAt index) = .ok result

theorem accepts_iff (window : Window) (count : Nat) :
    window.arity.accepts count = true ↔ window.Admits count := by
  unfold Arity.accepts Admits
  cases window.arity.most with
  | none => simp
  | some most => simp

theorem typeAt_eq (window : Window) (index : Nat) :
    window.typeAt index =
      if inside : index < window.params.length then window.params[index] else window.rest := by
  rw [typeAt, List.getD_eq_getElem?_getD]
  split
  · next inside => rw [List.getElem?_eq_getElem inside, Option.getD_some]
  · next outside => rw [List.getElem?_eq_none (Nat.not_lt.mp outside), Option.getD_none]

/-- The argument at a place is the first that does not convert to the type of its place. -/
structure Unfit (types : Nat → TypeExpr) (arguments : List Value) (place : Nat)
    (error : ConversionError) : Prop where
  before : ∀ earlier < place, ∃ value result, arguments[earlier]? = some value ∧
    Value.convert (types earlier) value = .ok result
  stops : ∃ value, arguments[place]? = some value ∧ Value.convert (types place) value = .error error

theorem Unfit.unique {types : Nat → TypeExpr} {arguments : List Value} {place other : Nat}
    {error cause : ConversionError} (unfit : Unfit types arguments place error)
    (stops : Unfit types arguments other cause) : place = other ∧ error = cause := by
  have notLess : ∀ {near far : Nat} {first second : ConversionError},
      Unfit types arguments near first → Unfit types arguments far second → ¬near < far := by
    intro near far first second here there less
    obtain ⟨value, result, given, converts⟩ := there.before near less
    obtain ⟨same, found, refused⟩ := here.stops
    cases given.symm.trans found
    cases converts.symm.trans refused
  have same : place = other :=
    Nat.le_antisymm (Nat.not_lt.mp (notLess stops unfit)) (Nat.not_lt.mp (notLess unfit stops))
  subst same
  obtain ⟨value, given, refused⟩ := unfit.stops
  obtain ⟨same, found, refuses⟩ := stops.stops
  cases given.symm.trans found
  cases refused.symm.trans refuses
  exact ⟨rfl, rfl⟩

def argumentFault (name : String) (index : Nat) : ConversionError → Fault
  | .refused refusal => .failure (.argument name (index + 1) refusal)
  | .crashed crash => .crash crash

section

variable {window : Window} {name : String} {index : Nat} {arguments : List Value}

theorem each_of_convertFrom {converted : List Value}
    (made : window.convertFrom name index arguments = .ok converted) :
    arguments.length = converted.length ∧ ∀ (place : Nat) (value result : Value),
      arguments[place]? = some value → converted[place]? = some result →
        value.convert (window.typeAt (index + place)) = .ok result := by
  induction arguments generalizing index converted with
  | nil =>
    cases made
    exact ⟨rfl, nofun⟩
  | cons first others ih =>
    unfold convertFrom at made
    split at made
    · next head converts =>
      obtain ⟨tail, rest, rfl⟩ := Except.map_eq_ok made
      obtain ⟨count, each⟩ := ih rest
      refine ⟨congrArg (· + 1) count, fun place value result given found => ?_⟩
      cases place with
      | zero =>
        cases given
        cases found
        exact converts
      | succ place =>
        have later := each place value result given found
        rwa [Nat.add_right_comm] at later
    · cases made
    · cases made

theorem convertFrom_of_each {converted : List Value} (count : arguments.length = converted.length)
    (each : ∀ (place : Nat) (value result : Value), arguments[place]? = some value →
      converted[place]? = some result → value.convert (window.typeAt (index + place)) = .ok result) :
    window.convertFrom name index arguments = .ok converted := by
  induction arguments generalizing index converted with
  | nil =>
    cases List.length_eq_zero_iff.mp count.symm
    rfl
  | cons first others ih =>
    cases converted with
    | nil => cases count
    | cons head tail =>
      have converts := each 0 first head rfl rfl
      have rest : window.convertFrom name (index + 1) others = .ok tail := by
        refine ih (Nat.succ.inj count) fun place value result given found => ?_
        have later := each (place + 1) value result given found
        rwa [← Nat.add_assoc, Nat.add_right_comm] at later
      rw [Nat.add_zero] at converts
      rw [convertFrom, converts, rest]
      rfl

theorem unfit_of_convertFrom {fault : Fault}
    (failed : window.convertFrom name index arguments = .error fault) :
    ∃ (place : Nat) (error : ConversionError),
      Unfit (fun other => window.typeAt (index + other)) arguments place error ∧
      fault = argumentFault name (index + place) error := by
  induction arguments generalizing index with
  | nil => cases failed
  | cons first others ih =>
    unfold convertFrom at failed
    split at failed
    · next head converts =>
      obtain ⟨place, error, ⟨before, stops⟩, same⟩ := ih (Except.map_eq_error failed)
      simp only [Nat.add_right_comm index 1] at before stops same
      refine ⟨place + 1, error, ⟨fun other less => ?_, stops⟩, same⟩
      cases other with
      | zero => exact ⟨first, head, rfl, converts⟩
      | succ other => exact before other (Nat.lt_of_succ_lt_succ less)
    · next refusal stops =>
      cases failed
      exact ⟨0, .refused refusal, ⟨nofun, first, rfl, stops⟩, rfl⟩
    · next crash stops =>
      cases failed
      exact ⟨0, .crashed crash, ⟨nofun, first, rfl, stops⟩, rfl⟩

end

theorem fits_iff {window : Window} (name : String) {arguments converted : List Value} :
    window.Fits arguments converted ↔
      window.Admits arguments.length ∧ window.convertFrom name 0 arguments = .ok converted := by
  constructor
  · intro fits
    refine ⟨fits.admits, convertFrom_of_each fits.count fun place => ?_⟩
    rw [Nat.zero_add]
    exact fits.each place
  · rintro ⟨admits, made⟩
    obtain ⟨count, each⟩ := each_of_convertFrom made
    simp only [Nat.zero_add] at each
    exact ⟨admits, count, each⟩

section

variable {window : Window} {name : String} {arguments : List Value} (run : List Value → Eval Value)

theorem guard_of_fits {converted : List Value} (fits : window.Fits arguments converted) :
    window.guard name run arguments = run converted := by
  obtain ⟨admits, made⟩ := (fits_iff name).mp fits
  rw [guard, checkArity, if_pos ((window.accepts_iff _).mpr admits), made]
  rfl

theorem guard_of_not_admits (outside : ¬window.Admits arguments.length) :
    window.guard name run arguments = Eval.fail (.hostArity name window.arity arguments.length) := by
  rw [guard, checkArity, if_neg fun accepted => outside ((window.accepts_iff _).mp accepted)]
  rfl

theorem guard_of_admits (name : String) (admits : window.Admits arguments.length) :
    (∃ converted, window.Fits arguments converted) ∨
      ∃ place error, Unfit window.typeAt arguments place error ∧
        ∀ run, window.guard name run arguments = throw (argumentFault name place error) := by
  cases converts : window.convertFrom name 0 arguments with
  | ok converted => exact .inl ⟨converted, (fits_iff name).mpr ⟨admits, converts⟩⟩
  | error fault =>
    obtain ⟨place, error, unfit, rfl⟩ := unfit_of_convertFrom converts
    simp only [Nat.zero_add] at unfit converts
    refine .inr ⟨place, error, unfit, fun run => ?_⟩
    rw [guard, checkArity, if_pos ((window.accepts_iff _).mpr admits), converts]
    rfl

end

end Window

namespace Adapter

def value (adapter : Adapter) (stamp : Stamp) : Value :=
  .adapter adapter.function adapter.name adapter.window stamp

/-- A call of the adapter runs its function once, on the given values: whatever the function is, when
the adapter is called directly, and when it is invoked. -/
def Runs (adapter : Adapter) (arguments values : List Value) : Prop :=
  (∀ run, adapter.window.guard adapter.name run arguments = run values) ∧
    ∀ (engine : Engine) (stamp : Stamp),
      engine.direct (adapter.value stamp) arguments = engine.direct adapter.function values ∧
      engine.deepen.invoke (adapter.value stamp) arguments =
        Eval.contain adapter.name (engine.direct adapter.function values)

/-- A call of the adapter fails and does nothing else. -/
def Rejects (adapter : Adapter) (arguments : List Value) (failure : Failure) : Prop :=
  (∀ run, adapter.window.guard adapter.name run arguments = Eval.fail failure) ∧
    ∀ (engine : Engine) (stamp : Stamp),
      engine.direct (adapter.value stamp) arguments = Eval.fail failure ∧
      engine.deepen.invoke (adapter.value stamp) arguments = Eval.fail failure

variable {adapter : Adapter} {arguments : List Value}

theorem runs_of_guard {values : List Value}
    (same : ∀ run, adapter.window.guard adapter.name run arguments = run values) :
    adapter.Runs arguments values :=
  ⟨same, fun _ _ => ⟨same _, congrArg (Eval.contain adapter.name) (same _)⟩⟩

theorem rejects_of_guard {failure : Failure}
    (same : ∀ run, adapter.window.guard adapter.name run arguments = Eval.fail failure) :
    adapter.Rejects arguments failure :=
  ⟨same, fun _ _ => ⟨same _, congrArg (Eval.contain adapter.name) (same _)⟩⟩

theorem not_runs_of_throw {fault : Fault}
    (same : ∀ run, adapter.window.guard adapter.name run arguments = throw fault) (values : List Value) :
    ¬adapter.Runs arguments values := by
  intro runs
  have ends := (same fun _ => pure .nil).symm.trans (runs.1 _)
  have results := congrArg (fun act : Eval Value => (act.outcome { scopes := .empty }).1) ends
  cases results

theorem fits_of_runs {values : List Value} (runs : adapter.Runs arguments values) :
    adapter.window.Fits arguments values := by
  by_cases admits : adapter.window.Admits arguments.length
  · obtain ⟨converted, fits⟩ | ⟨place, error, -, ends⟩ :=
      Window.guard_of_admits adapter.name admits
    · -- The function that gives its arguments back tells them apart.
      have ends := (Window.guard_of_fits (fun given => pure (.list given)) fits).symm.trans (runs.1 _)
      have results := congrArg (fun act : Eval Value => (act.outcome { scopes := .empty }).1) ends
      cases results
      exact fits
    · exact absurd runs (not_runs_of_throw ends values)
  · exact absurd runs (not_runs_of_throw (fun run => Window.guard_of_not_admits run admits) values)

end Adapter

namespace Window

theorem exists_fits_iff (window : Window) (arguments : List Value) :
    (∃ converted, window.Fits arguments converted) ↔
      window.Admits arguments.length ∧ ∀ (index : Nat) (value : Value),
        arguments[index]? = some value → ∃ result, value.convert (window.typeAt index) = .ok result := by
  constructor
  · rintro ⟨converted, fits⟩
    refine ⟨fits.admits, fun index value given => ?_⟩
    have inside : index < converted.length := fits.count ▸ (List.getElem?_eq_some_iff.mp given).1
    exact ⟨_, fits.each index value _ given (List.getElem?_eq_getElem inside)⟩
  · rintro ⟨admits, each⟩
    obtain found | ⟨place, error, unfit, -⟩ := guard_of_admits "" admits
    · exact found
    · obtain ⟨value, given, stops⟩ := unfit.stops
      obtain ⟨result, converts⟩ := each place value given
      cases converts.symm.trans stops

end Window

/-- A call of a host function is all or nothing. Arguments that fit, and no others, run the function,
once and on what they convert to. If their number is outside the window, that is the failure, whatever
they are. If one of them does not convert, the failure is about the first such one and says what its
conversion says. -/
theorem calls_all_or_nothing (adapter : Adapter) (arguments : List Value) :
    (∀ values, adapter.Runs arguments values ↔ adapter.window.Fits arguments values) ∧
    ((∃ values, adapter.Runs arguments values) ↔
      adapter.window.Admits arguments.length ∧ ∀ (index : Nat) (value : Value),
        arguments[index]? = some value →
          ∃ result, value.convert (adapter.window.typeAt index) = .ok result) ∧
    (¬adapter.window.Admits arguments.length →
      adapter.Rejects arguments (.hostArity adapter.name adapter.window.arity arguments.length)) ∧
    (adapter.window.Admits arguments.length →
      (∀ (index : Nat) (value : Value), arguments[index]? = some value →
        Value.Calm (value.convert (adapter.window.typeAt index))) →
      (∃ (index : Nat) (value : Value), arguments[index]? = some value ∧
        ∀ result, value.convert (adapter.window.typeAt index) ≠ .ok result) →
      ∃ place refusal, Window.Unfit adapter.window.typeAt arguments place (.refused refusal) ∧
        adapter.Rejects arguments (.argument adapter.name (place + 1) refusal)) ∧
    (∀ index, adapter.window.typeAt index =
      if inside : index < adapter.window.params.length then adapter.window.params[index]
      else adapter.window.rest) ∧
    (∀ arity given, (Failure.hostArity adapter.name arity given).className = "ParensArityError") ∧
    (∀ position refusal,
      (Failure.argument adapter.name position refusal).className = "ParensTypeError" ∧
      (Failure.argument adapter.name position refusal).message =
        s!"{adapter.name}: argument {position}: {(Failure.conversion refusal).message}") := by
  have runs_iff : ∀ values, adapter.Runs arguments values ↔ adapter.window.Fits arguments values :=
    fun values => ⟨Adapter.fits_of_runs, fun fits =>
      Adapter.runs_of_guard fun run => Window.guard_of_fits run fits⟩
  refine ⟨runs_iff, ?_, fun outside => ?_, fun admits calm spoilt => ?_, adapter.window.typeAt_eq,
    fun _ _ => rfl, fun _ _ => ⟨rfl, rfl⟩⟩
  · simp only [runs_iff]
    exact adapter.window.exists_fits_iff arguments
  · exact Adapter.rejects_of_guard fun run => Window.guard_of_not_admits run outside
  · obtain ⟨index, value, given, spoils⟩ := spoilt
    obtain fits | ⟨place, error, unfit, ends⟩ := Window.guard_of_admits adapter.name admits
    · obtain ⟨-, each⟩ := (adapter.window.exists_fits_iff arguments).mp fits
      obtain ⟨result, converts⟩ := each index value given
      exact absurd converts (spoils result)
    · cases error with
      | refused refusal => exact ⟨place, refusal, unfit, Adapter.rejects_of_guard ends⟩
      | crashed crash =>
        obtain ⟨culprit, found, crashes⟩ := unfit.stops
        exact absurd crashes (calm place culprit found crash)

theorem calls_all_or_nothing_further :
    let adapter : Adapter :=
      ⟨.native .opt, "opt", ⟨[.kind .int, .kind .float], ⟨1, none⟩, .kind .text⟩⟩
    let fitting : List Value := [.int 1, .int 2, .text "a"]
    let spoilt : List Value := [.int 1, .int 2, .text "a", .bool true, .nil]
    adapter.Runs fitting [.int 1, .float (.finite 2), .text "a"] ∧
      adapter.Rejects [] (.hostArity "opt" ⟨1, none⟩ 0) ∧
      adapter.Rejects spoilt (.argument "opt" 4 (.unsuitable .bool (.kind .text))) := by
  intro adapter fitting spoilt
  obtain ⟨runs_iff, -⟩ := calls_all_or_nothing adapter fitting
  obtain ⟨-, -, outside, -⟩ := calls_all_or_nothing adapter []
  obtain ⟨-, -, -, rejects, -⟩ := calls_all_or_nothing adapter spoilt
  have admits : ∀ count, 1 ≤ count → adapter.window.Admits count := fun _ enough => ⟨enough, nofun⟩
  have moderate : ∀ value ∈ spoilt, value.isModerate = true :=
    Value.areModerate_iff.mp (by decide +kernel)
  have calm : ∀ (index : Nat) (value : Value), spoilt[index]? = some value →
      Value.Calm (value.convert (adapter.window.typeAt index)) := fun _ value given =>
    Value.calm_convert _ (moderate value (List.mem_of_getElem? given))
  have fourth : Window.Unfit adapter.window.typeAt spoilt 3
      (.refused (.unsuitable .bool (.kind .text))) := by
    refine ⟨fun earlier less => ?_, .bool true, rfl, rfl⟩
    match earlier, less with
    | 0, _ => exact ⟨.int 1, .int 1, rfl, rfl⟩
    | 1, _ => exact ⟨.int 2, .float (.finite 2), rfl, rfl⟩
    | 2, _ => exact ⟨.text "a", .text "a", rfl, rfl⟩
  refine ⟨(runs_iff _).mpr ⟨admits 3 (by decide), rfl, ?_⟩, outside ?_, ?_⟩
  · intro index value result given found
    match index, given, found with
    | 0, rfl, rfl => rfl
    | 1, rfl, rfl => rfl
    | 2, rfl, rfl => rfl
  · rintro ⟨enough, -⟩
    cases enough
  · obtain ⟨place, refusal, unfit, rejected⟩ :=
      rejects (admits 5 (by decide)) calm ⟨3, .bool true, rfl, fun _ converts => nomatch converts⟩
    obtain ⟨rfl, same⟩ := unfit.unique fourth
    cases same
    exact rejected

end HostLisp
