import HostLisp.Proofs.Turns
import Mathlib.Data.List.Induction
import Mathlib.Data.List.Infix

/-!
Threads and nested calls. A thread evaluates its start and hands the value from call to call; the
nested calls evaluate the operators, and the arguments in front, of the outer calls before those of
the inner ones. Where these are stable, both end in the same.
-/

namespace HostLisp

open Eval

namespace Splice

def form : Splice → Form
  | first => .threadFirst
  | last => .threadLast

def before : Splice → List Expr → List Expr
  | first, _ => []
  | last, arguments => arguments

def behind : Splice → List Expr → List Expr
  | first, arguments => arguments
  | last, _ => []

end Splice

def Step.call (step : Step) : Expr := .list (step.head :: step.arguments)

/-- The parts of a step that its nested call evaluates before the threaded argument. -/
def Step.early (splice : Splice) (step : Step) : List Expr := step.head :: splice.before step.arguments

def threaded (splice : Splice) (start : Expr) (steps : List Step) : Expr :=
  .list (.symbol splice.form.name :: start :: steps.map Step.call)

def nested (splice : Splice) (start : Expr) (steps : List Step) : Expr :=
  steps.foldl (fun inner step => Engine.stepCall splice step inner) start

namespace Engine

theorem stepCall_eq (splice : Splice) (step : Step) (inner : Expr) :
    stepCall splice step inner =
      .list (step.head :: (splice.before step.arguments ++ inner :: splice.behind step.arguments)) := by
  cases splice <;> rfl

def threadFrom (host : Host) (scope : ScopeId) (splice : Splice) (start : Expr) (steps : List Step)
    (calls : Calls) : Eval Value :=
  calls.evaluate scope start >>= fun value => thread ⟨calls, host⟩ scope splice value steps

theorem thread_concat (engine : Engine) (scope : ScopeId) (splice : Splice) (value : Value)
    (steps : List Step) (step : Step) :
    engine.thread scope splice value (steps ++ [step]) =
      engine.thread scope splice value steps >>= fun value => spliceStamp >>= fun stamp =>
        engine.evaluate scope (stepCall splice step (.value value stamp)) := by
  induction steps generalizing value with
  | nil => simp [thread]
  | cons first steps ih => simp [thread, ih]

theorem nested_concat (splice : Splice) (start : Expr) (steps : List Step) (step : Step) :
    nested splice start (steps ++ [step]) = stepCall splice step (nested splice start steps) :=
  List.foldl_concat _ _ _ _

theorem threadFrom_nil (host : Host) (scope : ScopeId) (splice : Splice) (start : Expr) :
    threadFrom host scope splice start [] = fun calls => calls.evaluate scope start := by
  funext calls
  simp [threadFrom, thread]

theorem threadFrom_concat (host : Host) (scope : ScopeId) (splice : Splice) (start : Expr)
    (steps : List Step) (step : Step) :
    threadFrom host scope splice start (steps ++ [step]) = fun calls =>
      threadFrom host scope splice start steps calls >>= fun value => spliceStamp >>= fun stamp =>
        calls.evaluate scope (stepCall splice step (.value value stamp)) := by
  funext calls
  simp [threadFrom, thread_concat]

end Engine

open Engine

theorem deepens_threadFrom {host : Host} (scope : ScopeId) (splice : Splice) (start : Expr)
    (steps : List Step) : Deepens (threadFrom host scope splice start steps) := by
  have code : Code host .orderly (fun _ => True) (some scope)
      (threadFrom host scope splice start steps) :=
    .andThen (.evaluate scope start) fun value => .thread splice value steps
  intro calls other agrees
  exact code.agrees id agrees

theorem alike_threadFrom {host : Host} {scope : ScopeId} {splice : Splice} {start : Expr}
    {steps : List Step} {calls : Calls} (uniform : calls.Uniform) {p : Pairing}
    (scopes : p.Like (Name.scope scope) (.scope scope)) (starts : p.Like start start)
    (like : p.Like steps steps) :
    Alike p Pairing.Like (threadFrom host scope splice start steps calls)
      (threadFrom host scope splice start steps calls) :=
  (uniform.evaluate scopes starts).bind fun _ later _ _ value =>
    uniform.thread (scopes.mono later) splice (like.mono later) value

theorem Action.readSteps_calls (operator : String) (position : Nat) (steps : List Step) :
    readSteps operator position (steps.map Step.call) = .ok steps := by
  induction steps generalizing position with
  | nil => rfl
  | cons step steps ih =>
    rw [List.map_cons, Step.call, readSteps, ih]
    rfl

theorem Action.read_calls (splice : Splice) (operator : String) (start : Expr) (steps : List Step) :
    read splice.form operator (start :: steps.map Step.call) = .ok (.thread splice start steps) := by
  have calls := readSteps_calls operator 1 steps
  cases splice with
  | first | last =>
    simp only [Splice.form, read, readThread, calls]
    rfl

theorem Ends.of_bound {host : Host} {scope : ScopeId} {name : String} {value : Value} {state : State}
    (bound : state.scopes.resolve? scope name = some value) :
    Evaluates host scope (.symbol name) state (.ok value, state) := by
  have found : (Eval.lookup scope name).outcome state = (.ok value, state) := by
    rw [outcome_lookup, bound]
  have settled : Settled ((Eval.lookup scope name).outcome state).1 := by
    rw [found]
    trivial
  rw [Ends.evaluate_iff, ← found]
  exact .of_own settled

theorem threaded_iff {host : Host} {scope : ScopeId} {splice : Splice} {start : Expr} {steps : List Step}
    {state : State} (core : state.scopes.resolve? scope splice.form.name = some (.form splice.form))
    (nonempty : steps ≠ []) {ending : Except Fault Value × State} :
    Evaluates host scope (threaded splice start steps) state ending ↔
      Ends host (threadFrom host scope splice start steps) state ending := by
  rw [Ends.evaluate_iff]
  refine (Ends.of_bound core).andThen_iff.trans ?_
  obtain ⟨step, steps, rfl⟩ := List.exists_cons_of_ne_nil nonempty
  simp only [callForm, Action.read_calls]
  rfl

namespace Pairing

/-- What a run adds on the right to a pairing of each name of an earlier session with itself. What came
up on the right in the meantime is not paired, and stays as it is. -/
structure Adds (p : Pairing) (σ ν ω : State) : Prop where
  le : σ.same ≤ p
  grows : ∀ name, ν.Has name → ω.Has name
  new : ∀ name ∈ p.domain, ¬σ.Has name → ¬ν.Has (p.names • name)
  kept : ∀ id, ν.Has (.scope id) → ¬σ.Has (.scope id) → ω.scopes.scope id = ν.scopes.scope id

namespace Adds

variable {p q : Pairing} {σ ν ν' τ τ' ω ω' : State}

theorem refl (σ ν : State) : σ.same.Adds σ ν ν where
  le := le_refl _
  grows _ has := has
  new _ among apart := absurd among apart
  kept _ _ _ := rfl

theorem moves (adds : p.Adds σ ν ω) {name : Name} (has : σ.Has name) : p.names • name = name :=
  (adds.le.2 name has).symm.trans (one_smul _ _)

theorem spares (adds : p.Adds σ ν' ω) (between : σ.same.Between σ ν) : p.Spares ω ν ν' where
  free := by
    intro name among has
    have old : σ.Has name := by
      by_contra apart
      exact adds.new name among apart has
    have known := between.right_has name old
    rwa [State.same, one_smul, ← adds.moves old] at known
  there := adds.grows
  still id has new := adds.kept id has fun old => new (between.right_has (.scope id) old)

theorem gains (adds : p.Adds σ ν' ω) (gains : p.Gains q ν ν') (onward : ν.Extends ν') :
    q.Adds σ ν ω where
  le := adds.le.trans gains.le
  grows name has := adds.grows name (onward.grows name has)
  new := by
    intro name among apart
    rcases gains.new name among with among | ⟨-, new⟩
    · rw [← gains.le.2 name among]
      exact fun has => adds.new name among apart (onward.grows _ has)
    · exact new
  kept id has apart := (adds.kept id (onward.grows _ has) apart).trans (onward.keeps id has)

theorem follows (adds : p.Adds σ ν ω) (follows : p.Follows τ ω q τ' ω') : q.Adds σ ν ω' where
  le := adds.le.trans follows.le
  grows name has := follows.right_grows name (adds.grows name has)
  new := by
    intro name among apart has
    by_cases paired : name ∈ p.domain
    · rw [← follows.le.2 name paired] at has
      exact adds.new name paired apart has
    · exact (follows.new name among paired).2 (adds.grows _ has)
  kept := by
    intro id has apart
    have unpaired : ∀ name ∈ p.domain, p.names • name ≠ .scope id := by
      intro name among same
      have old : σ.Has name := by
        by_contra new
        exact adds.new name among new (same ▸ has)
      exact apart (same ▸ (adds.moves old).symm ▸ old)
    rw [follows.kept id (adds.grows _ has) unpaired, adds.kept id has apart]

end Adds

end Pairing

namespace Covers

variable {domain : Set Name} {step : Step} (covers : Covers domain (step.head :: step.arguments))
include covers

theorem early (splice : Splice) : Covers domain (step.early splice) := by
  cases splice with
  | first => exact covers.part fun _ _ same => congrArg (fun parts => parts.take 1) same
  | last => exact covers

theorem behind (splice : Splice) : Covers domain (splice.behind step.arguments) := by
  cases splice with
  | first => exact covers.tail
  | last => exact .of_fixed fun _ => rfl

end Covers

/-- Whether nested calls, from any session that still has what there was at the start, end as the
thread does from the start. -/
def Nests (host : Host) (scope : ScopeId) (splice : Splice) (start : Expr) (σ : State)
    (steps : List Step) : Prop :=
  ∀ (ν : State) (ending : Except Fault Value × State), σ.same.Between σ ν →
    Ends host (threadFrom host scope splice start steps) σ ending →
    ∃ p ending', Evaluates host scope (nested splice start steps) ν ending' ∧
      Pairing.Adds p σ ν ending'.2 ∧ p.Between ending.2 ending'.2 ∧
      p.Results Pairing.Like ending.1 ending'.1

section

variable {host : Host} (orderly : host.Orderly) (uniform : host.Uniform) {scope : ScopeId}
  {splice : Splice} {start : Expr} {σ : State} (coherent : σ.Coherent) (has : σ.Has (.scope scope))
include orderly uniform coherent has

omit coherent in
theorem Nests.nil (covers : Covers {name | σ.Has name} start) : Nests host scope splice start σ [] := by
  intro ν ending between ends
  rw [threadFrom_nil] at ends
  obtain ⟨ending', p, ends', follows, corresponds, results⟩ :=
    ends.alike orderly (fun agrees => agrees.evaluate scope start)
      (fun depth => (Engine.uniform_ofDepth uniform depth).evaluate (State.like_same_scope has)
        (State.like_same covers)) between
  exact ⟨p, ending', ends', (Pairing.Adds.refl σ ν).follows follows, corresponds, results⟩

omit coherent in
theorem Stable.isInvokable {later : State → Prop} {expr : Expr} (stable : Stable host scope σ later expr)
    (invokable : ∀ operator state, Evaluates host scope expr σ (.ok operator, state) →
      operator.isInvokable = true)
    (covers : Covers {name | σ.Has name} expr) {ν after : State} (between : σ.same.Between σ ν)
    {operator : Value} (ends : Evaluates host scope expr ν (.ok operator, after)) :
    operator.isInvokable = true := by
  obtain ⟨value, state, first, keeps, -⟩ := stable
  obtain ⟨q, value', after', again, -, -, -, like⟩ := first.again orderly uniform keeps has covers between
  cases again.unique ends
  rw [like.1, Value.isInvokable_smul]
  exact invokable value state first

omit coherent has in
theorem Ends.invocation {p : Pairing} {left right : State} (between : p.Between left right)
    (scopes : p.Like (Name.scope scope) (.scope scope)) {others : List Expr}
    (exprs : p.Like others others)
    {operator operator' value value' : Value} {arguments arguments' : List Value}
    (operators : p.Like operator operator') (likes : p.Like arguments arguments')
    (like : p.Like value value') {ending : Except Fault Value × State}
    (ends : Ends host (fun calls => evaluateAll ⟨calls, host⟩ scope others >>= fun rest =>
      calls.invoke operator (arguments ++ value :: rest)) left ending) :
    ∃ ending' q, Ends host (fun calls => evaluateAll ⟨calls, host⟩ scope others >>= fun rest =>
        calls.invoke operator' (arguments' ++ value' :: rest)) right ending' ∧
      p.Follows left right q ending.2 ending'.2 ∧ q.Between ending.2 ending'.2 ∧
      q.Results Pairing.Like ending.1 ending'.1 := by
  refine ends.alike orderly (fun agrees => ?_) (fun depth => ?_) between
  · have code : Code host .orderly (fun _ => True) (some scope) fun calls =>
        evaluateAll ⟨calls, host⟩ scope others >>= fun rest =>
          calls.invoke operator' (arguments' ++ value' :: rest) :=
      .andThen (.evaluateAll others) fun rest => .invoke operator' _
    exact code.agrees id agrees
  · have uniform := Engine.uniform_ofDepth uniform depth
    refine (uniform.evaluateAll scopes exprs).bind fun q more rest rest' held => ?_
    exact uniform.invoke (operators.mono more) ((likes.mono more).append ((like.mono more).cons held))

omit coherent in
theorem Early.call {later : State → Prop} {step : Step} {ν ν' reached τ ω : State} {p : Pairing}
    {operator value value' : Value} {arguments : List Value} {stamp : Stamp}
    (early : Early σ later (InTurn host scope (step.early splice)) ν (operator :: arguments) ν')
    (callable : operator.isInvokable = true)
    (covers : Covers {name | σ.Has name} (step.head :: step.arguments)) (between : σ.same.Between σ ν)
    (passed : later reached) (renewed : reached.same.Between reached τ) (adds : p.Adds σ ν' ω)
    (corresponds : p.Between τ ω) (like : p.Like value value') {ending : Except Fault Value × State}
    (ends : Evaluates host scope (stepCall splice step (.value value stamp)) τ ending) :
    ∃ q ending', Ends host (fun calls =>
        evaluateAll ⟨calls, host⟩ scope (splice.behind step.arguments) >>= fun rest =>
          calls.invoke operator (arguments ++ value' :: rest)) ω ending' ∧
      Pairing.Adds q σ ν ending'.2 ∧ q.Between ending.2 ending'.2 ∧
      q.Results Pairing.Like ending.1 ending'.1 := by
  rw [stepCall_eq] at ends
  obtain ⟨values, τ', q, late, -, gains, corresponds, alike⟩ :=
    early.late passed renewed corresponds adds.le (adds.spares between)
  obtain ⟨operator', arguments', mid, rfl, -, -⟩ := late.of_cons
  obtain ⟨_, _, same, operators, values⟩ := alike.of_cons
  cases same
  have callable' : operator'.isInvokable = true := by
    rwa [operators.1, Value.isInvokable_smul] at callable
  -- The threaded value stands in the call as it is, so it is not evaluated as code.
  have held : Evaluates host scope (.value value stamp) τ' (.ok value, τ') :=
    Ends.evaluate_iff.2 (.of_own trivial)
  have le : σ.same ≤ q := adds.le.trans gains.le
  obtain ⟨ending', r, rest, follows, corresponds, results⟩ :=
    Ends.invocation orderly uniform corresponds ((State.like_same_scope has).mono le)
      ((State.like_same (covers.behind splice)).mono le) operators values (like.mono gains.le)
      (((late.call_iff callable').1 ends).rest held)
  exact ⟨r, ending', rest, (adds.gains gains early.onward).follows follows, corresponds, results⟩

/-- One more step. Its operator and the arguments in front, evaluated early in the nested calls, are
evaluated late in the thread; the call itself then comes on both sides. -/
theorem Nests.concat {steps : List Step} (nests : Nests host scope splice start σ steps) {step : Step}
    {later : State → Prop} (since : ∀ state, later state → ∀ name, σ.Has name → state.Has name)
    (reached : ∀ value state, Ends host (threadFrom host scope splice start steps) σ (.ok value, state) →
      later state ∧ state.Coherent)
    (stable : ∀ part ∈ step.early splice, Stable host scope σ later part)
    (invokable : ∀ operator state, Evaluates host scope step.head σ (.ok operator, state) →
      operator.isInvokable = true)
    (covers : Covers {name | σ.Has name} (step.head :: step.arguments)) :
    Nests host scope splice start σ (steps ++ [step]) := by
  intro ν ending between ends
  rw [threadFrom_concat] at ends
  rw [nested_concat, stepCall_eq]
  -- The nested call first evaluates its early parts from `ν`; the calls inside it start where that ends.
  obtain ⟨values, ν', early⟩ :=
    InTurn.exists_early orderly uniform coherent has since stable (covers.early splice) between
  obtain ⟨operator, arguments, mid, rfl, head, -⟩ := early.made.of_cons
  have callable : operator.isInvokable = true :=
    (stable step.head (.head _)).isInvokable orderly uniform has invokable covers.head between head
  obtain ⟨⟨result, τ⟩, inner⟩ := ends.first orderly (deepens_threadFrom scope splice start steps)
  obtain ⟨p, ⟨result', ω⟩, inner', adds, corresponds, results⟩ :=
    nests ν' _ (between.onward (.refl σ) early.onward) inner
  cases results with
  | error fault =>
    cases ends.unique inner.andThen_fault
    exact ⟨p, (.error fault, ω), (early.made.call_iff callable).2 inner'.andThen_fault,
      adds.gains (.refl p ν ν') early.onward, corresponds, .error fault⟩
  | @ok value value' like =>
    obtain ⟨passed, settled⟩ := reached value τ inner
    let stamped : State := { τ with splices := τ.splices + 1 }
    have onward : τ.Extends stamped :=
      ⟨fun name has => (τ.has_spliceStamp name).2 (.inl has), fun _ _ => rfl⟩
    have placed : Ends host (fun _ => spliceStamp) τ (.ok ⟨τ.scopes.size, τ.splices⟩, stamped) :=
      .of_own trivial
    obtain ⟨q, ending', rest, adds, corresponds, results⟩ :=
      early.call orderly uniform has callable covers between passed (settled.onward (.refl τ) onward) adds
        (corresponds.onward onward (.refl ω)) like ((ends.rest inner).rest placed)
    exact ⟨q, ending', (early.made.call_iff callable).2 (inner'.andThen rest), adds, corresponds, results⟩

end

def Passes (host : Host) (scope : ScopeId) (splice : Splice) (start : Expr) (steps : List Step)
    (σ τ : State) : Prop :=
  ∃ front value, front <+: steps ∧ Ends host (threadFrom host scope splice start front) σ (.ok value, τ)

namespace Passes

variable {host : Host} {scope : ScopeId} {splice : Splice} {start : Expr} {steps : List Step}
  {σ τ : State}

theorem scopes_eq (orderly : host.Orderly) (depth : Nat)
    (keeps : ∀ front ∈ steps.inits,
      let ending := (Engine.threadFrom host scope splice start front
        (Engine.ofDepth host depth).toCalls).outcome σ
      Settled ending.1 ∧ ending.2.scopes = σ.scopes)
    (passes : Passes host scope splice start steps σ τ) : τ.scopes = σ.scopes := by
  obtain ⟨front, value, begins, ends⟩ := passes
  obtain ⟨settled, same⟩ := keeps front ((List.mem_inits front steps).2 begins)
  rwa [ends.outcome_eq orderly (deepens_threadFrom scope splice start front) settled] at same

end Passes

namespace Covers

variable {domain : Set Name} {splice : Splice} {start : Expr} {steps : List Step}

theorem list_iff {α : Type} [SMul Renaming α] {items : List α} :
    Covers domain items ↔ ∀ item ∈ items, Covers domain item :=
  ⟨fun covers _ among => covers.part fun _ _ same => List.map_inj_left.1 same _ among,
    fun covers f g agree => List.map_congr_left fun item among => covers item among f g agree⟩

theorem of_threaded (covers : Covers domain (threaded splice start steps)) :
    Covers domain start ∧ ∀ step ∈ steps, Covers domain (step.head :: step.arguments) := by
  have parts : Covers domain (.symbol splice.form.name :: start :: steps.map Step.call) :=
    covers.part fun f g same => by simpa [threaded] using same
  refine ⟨parts.tail.head, fun step among => ?_⟩
  have call : Covers domain step.call := list_iff.1 parts.tail.tail _ (List.mem_map_of_mem among)
  exact call.part fun f g same => by simpa [Step.call] using same

theorem of_parts (covers : ∀ step ∈ steps, Covers domain (step.head :: step.arguments)) :
    Covers domain steps := by
  refine list_iff.2 fun step among f g agree => ?_
  have same := List.cons.inj (covers step among f g agree)
  exact congrArg₂ Step.mk same.1 same.2

end Covers

section

variable {host : Host} (orderly : host.Orderly) (uniform : host.Uniform) {scope : ScopeId}
  {splice : Splice} {start : Expr} {steps : List Step} {σ τ : State} (coherent : σ.Coherent)
  (has : σ.Has (.scope scope)) (covers : Covers {name | σ.Has name} (threaded splice start steps))
include orderly uniform coherent has covers

theorem Passes.settled (passes : Passes host scope splice start steps σ τ) :
    τ.Coherent ∧ ∀ name, σ.Has name → τ.Has name := by
  obtain ⟨front, value, begins, ends⟩ := passes
  have known : Covers {name | σ.Has name} front :=
    .of_parts fun step among => covers.of_threaded.2 step (begins.subset among)
  obtain ⟨settled, grows, -⟩ := ends.coherent orderly uniform
    (deepens_threadFrom scope splice start front)
    (alike_threadFrom · (State.like_same_scope has) (State.like_same covers.of_threaded.1)
      (State.like_same known)) coherent
  exact ⟨settled, grows⟩

theorem nests_of_stable
    (stable : ∀ step ∈ steps, ∀ part ∈ step.head :: step.arguments,
      Stable host scope σ (Passes host scope splice start steps σ) part)
    (invokable : ∀ step ∈ steps, ∀ operator state,
      Evaluates host scope step.head σ (.ok operator, state) →
      operator.isInvokable = true) :
    ∀ front, front <+: steps → Nests host scope splice start σ front := by
  intro front
  -- The last step is the outermost call, so steps are added at the end.
  induction front using List.reverseRecOn with
  | nil => exact fun _ => .nil orderly uniform has covers.of_threaded.1
  | append_singleton front step ih =>
    intro begins
    have among : step ∈ steps := begins.subset (by simp)
    have before : front <+: steps := (List.prefix_append front [step]).trans begins
    refine (ih before).concat orderly uniform coherent has
      (fun state passes => (passes.settled orderly uniform coherent has covers).2)
      (fun value state ends => ?_) (fun part inside => stable step among part ?_) (invokable step among)
      (covers.of_threaded.2 step among)
    · have passes : Passes host scope splice start steps σ state := ⟨front, value, before, ends⟩
      exact ⟨passes, (passes.settled orderly uniform coherent has covers).1⟩
    · cases splice with
      | first =>
        cases List.mem_singleton.1 inside
        exact .head _
      | last => exact inside

end

/-- Whether two runs from one session end in the same. Names of the session stand for themselves, and
what came up on one side for what came up on the other; the results are alike, and so are the contents
of every scope of the session and of all scopes that can be reached from there. -/
def SameEnding (σ : State) (ending ending' : Except Fault Value × State) : Prop :=
  ∃ p, σ.same ≤ p ∧ p.Between ending.2 ending'.2 ∧ p.Results Pairing.Like ending.1 ending'.1

theorem SameEnding.ok_eq {σ : State} {ending ending' : Except Fault Value × State}
    (same : SameEnding σ ending ending') {value : Value} (gives : ending.1 = .ok value)
    (known : Covers {name | σ.Has name} value) : ending'.1 = .ok value := by
  obtain ⟨p, le, -, results⟩ := same
  rw [gives] at results
  cases ended : ending'.1 with
  | error fault =>
    rw [ended] at results
    cases results
  | ok value' =>
    rw [ended] at results
    cases results with
    | ok like => rw [like.1, ← known 1 p.names le.2, one_smul]

theorem SameEnding.scope_eq {σ : State} {ending ending' : Except Fault Value × State}
    (same : SameEnding σ ending ending') {id : ScopeId} (has : σ.Has (.scope id))
    (known : Covers {name | σ.Has name} (ending.2.scopes.scope id)) :
    ending'.2.scopes.scope id = ending.2.scopes.scope id := by
  obtain ⟨p, le, between, -⟩ := same
  have moved : p.names.scope id = id := Name.scope.inj ((le.2 (.scope id) has).symm.trans (one_smul _ _))
  have contents := (between.scopes id (le.1 has)).1
  rwa [moved, ← known 1 p.names le.2, one_smul] at contents

/-- A thread ends as the calls inside each other do, whatever its start and its calls do and give, if
its operators can be invoked, and they and the other arguments are stable. -/
theorem threading_nests {host : Host} (orderly : host.Orderly) (uniform : host.Uniform) {scope : ScopeId}
    {splice : Splice} {start : Expr} {steps : List Step} {σ : State} (coherent : σ.Coherent)
    (has : σ.Has (.scope scope))
    (core : σ.scopes.resolve? scope splice.form.name = some (.form splice.form)) (nonempty : steps ≠ [])
    (covers : Covers {name | σ.Has name} (threaded splice start steps))
    (stable : ∀ step ∈ steps, ∀ part ∈ step.head :: step.arguments,
      Stable host scope σ (Passes host scope splice start steps σ) part)
    (invokable : ∀ step ∈ steps, ∀ operator state,
      Evaluates host scope step.head σ (.ok operator, state) → operator.isInvokable = true)
    (depth : Nat) :
    let run := fun depth expr => ((Engine.ofDepth host depth).evaluate scope expr).outcome σ
    Settled (run depth (threaded splice start steps)).1 →
    ∃ ending, Evaluates host scope (nested splice start steps) σ ending ∧
      (∀ depth', Settled (run depth' (nested splice start steps)).1 →
        run depth' (nested splice start steps) = ending) ∧
      SameEnding σ (run depth (threaded splice start steps)) ending := by
  intro run settled
  have ends : Ends host (threadFrom host scope splice start steps) σ
      (run depth (threaded splice start steps)) :=
    (threaded_iff core nonempty).1 (.of_settled orderly (fun agrees => agrees.evaluate scope _) settled)
  obtain ⟨p, ending, ends', adds, between, results⟩ :=
    nests_of_stable orderly uniform coherent has covers stable invokable steps (List.prefix_refl steps)
      σ _ coherent ends
  refine ⟨ending, ends', fun depth' settled' => ?_, p, adds.le, between, results⟩
  exact ends'.outcome_eq orderly (fun agrees => agrees.evaluate scope _) settled'

theorem threading_nests_quoted :
    let σ := Session.initial [.form .threadLast, .native "pack" .pack]
    let start : Expr := .quote (.symbol "a")
    let steps : List Step := [⟨.symbol "pack", [.string "\"s\""]⟩, ⟨.symbol "pack", []⟩]
    let value : Value := .list [.list [.text "s", .code (.symbol "a")]]
    (((Engine.ofDepth Host.catalogue 3).evaluate 0 (threaded .last start steps)).outcome σ).1 = .ok value ∧
      ∃ ending, Evaluates Host.catalogue 0 (nested .last start steps) σ ending ∧
        ending.1 = .ok value ∧ ending.2.scopes.scope 0 = σ.scopes.scope 0 := by
  intro σ start steps value
  have coherent : σ.Coherent := Session.coherent_initial fun binding among f => by
    rcases List.mem_cons.1 among with rfl | among
    · rfl
    · rw [List.mem_singleton.1 among]
      rfl
  have has : σ.Has (.scope 0) := Session.has_root _
  have covers : Covers {name | σ.Has name} (threaded .last start steps) := .of_fixed fun _ => rfl
  have passed : ∀ τ, Passes Host.catalogue 0 .last start steps σ τ → τ.scopes = σ.scopes := fun τ =>
    Passes.scopes_eq Native.abides_catalogue 3
      (List.forall_mem_cons.2 ⟨⟨trivial, rfl⟩, List.forall_mem_cons.2 ⟨⟨trivial, rfl⟩,
        List.forall_mem_singleton.2 ⟨trivial, rfl⟩⟩⟩)
  have pack : ∀ τ : State, τ.scopes = σ.scopes →
      Evaluates Host.catalogue 0 (.symbol "pack") τ (.ok (.native .pack), τ) := by
    intro τ same
    refine .of_bound ?_
    rw [same]
    rfl
  have text : ∀ τ : State, Evaluates Host.catalogue 0 (.string "\"s\"") τ (.ok (.text "s"), τ) :=
    fun τ => Ends.evaluate_iff.2 (.of_own trivial)
  have stable : ∀ {expr : Expr} {value : Value}, (∀ f : Renaming, f • expr = expr) →
      (∀ f : Renaming, f • value = value) → (∀ τ : State, τ.scopes = σ.scopes →
        Evaluates Host.catalogue 0 expr τ (.ok value, τ)) →
      Stable Host.catalogue 0 σ (Passes Host.catalogue 0 .last start steps σ) expr :=
    fun nameless known each =>
      .of_same Native.abides_catalogue Native.uniform_run coherent has
        (.of_fixed nameless) (.of_fixed known)
        (each σ rfl) (fun _ _ => rfl) fun τ passes => ⟨τ, each τ (passed τ passes), fun _ _ => rfl⟩
  have result : (((Engine.ofDepth Host.catalogue 3).evaluate 0 (threaded .last start steps)).outcome σ).1 =
      .ok value := rfl
  have parts : ∀ step ∈ steps, ∀ part ∈ step.head :: step.arguments,
      Stable Host.catalogue 0 σ (Passes Host.catalogue 0 .last start steps σ) part := by
    intro step among part inside
    have part : part = .symbol "pack" ∨ part = .string "\"s\"" := by
      simp only [steps, List.mem_cons, List.not_mem_nil, or_false] at among
      rcases among with rfl | rfl
      · simpa using inside
      · exact .inl (by simpa using inside)
    rcases part with rfl | rfl
    · exact stable (fun _ => rfl) (fun _ => rfl) pack
    · exact stable (fun _ => rfl) (fun _ => rfl) fun τ _ => text τ
  have invokable : ∀ step ∈ steps, ∀ operator state,
      Evaluates Host.catalogue 0 step.head σ (.ok operator, state) →
      operator.isInvokable = true := by
    intro step among operator state ends
    have head : step.head = .symbol "pack" := by
      simp only [steps, List.mem_cons, List.not_mem_nil, or_false] at among
      rcases among with rfl | rfl <;> rfl
    rw [head] at ends
    cases ends.unique (pack σ rfl)
    rfl
  obtain ⟨ending, ends, -, same⟩ := threading_nests Native.abides_catalogue Native.uniform_run coherent
    has rfl
    (List.cons_ne_nil _ _) covers parts invokable 3 trivial
  exact ⟨result, ending, ends, same.ok_eq result (.of_fixed fun _ => rfl),
    same.scope_eq has (.of_fixed fun _ => rfl)⟩

def Host.counting : Host where
  run calls native arguments :=
    match native with
    | .echo _ _ => do return .int (← get).log.length
    | native => Native.run calls native arguments
  other := Host.catalogue.other
  signature? := Host.catalogue.signature?
  names := Host.catalogue.names

theorem Host.orderly_counting : Host.counting.Orderly := by
  refine ⟨fun native arguments => ?_, fun operator arguments => .own (Eval.own_crash trivial)⟩
  have known : Outside counting .orderly fun calls => Native.run calls native arguments :=
    native.outside_run arguments
  cases native with
  | echo name signature => exact .own (Eval.own_get.andThen fun _ => Eval.own_pure _)
  | _ => exact known

/-- A host that counts what was recorded tells a thread from its calls inside each other. -/
theorem threading_nests_counting :
    let σ := Session.initial [.form .threadLast, .native "pack" .pack, .native "record" .record,
      .native "count" (.echo "count" (.ofParams []))]
    let start : Expr := .list [.symbol "count"]
    let step : Step := ⟨.symbol "pack", [.list [.symbol "record", .string "\"s\""]]⟩
    let run (expr : Expr) := ((Engine.ofDepth Host.counting 4).evaluate 0 expr).outcome σ
    Host.counting.Orderly ∧
      σ.scopes.resolve? 0 Splice.last.form.name = some (.form Splice.last.form) ∧
      (∀ part ∈ step.head :: step.arguments,
        Stable Host.counting 0 σ (Passes Host.counting 0 .last start [step] σ) part) ∧
      (∀ operator state, Evaluates Host.counting 0 step.head σ (.ok operator, state) →
        operator.isInvokable = true) ∧
      (run (threaded .last start [step])).1 = .ok (.list [.text "s", .int 0]) ∧
      (run (nested .last start [step])).1 = .ok (.list [.text "s", .int 1]) := by
  intro σ start step run
  have orderly := Host.orderly_counting
  have passed : ∀ τ, Passes Host.counting 0 .last start [step] σ τ → τ.scopes = σ.scopes := fun τ =>
    Passes.scopes_eq orderly 4
      (List.forall_mem_cons.2 ⟨⟨trivial, rfl⟩, List.forall_mem_singleton.2 ⟨trivial, rfl⟩⟩)
  have pack : ∀ τ : State, τ.scopes = σ.scopes →
      Evaluates Host.counting 0 (.symbol "pack") τ (.ok (.native .pack), τ) := by
    intro τ same
    refine .of_bound ?_
    rw [same]
    rfl
  have record : ∀ τ : State, τ.scopes = σ.scopes →
      Evaluates Host.counting 0 (.list [.symbol "record", .string "\"s\""]) τ
        (.ok (.text "s"), { τ with log := τ.log ++ [.text "s"] }) := by
    rintro ⟨scopes, output, log, cancelled, serial, splices⟩ rfl
    have settled : Settled (((Engine.ofDepth Host.counting 4).evaluate 0
        (.list [.symbol "record", .string "\"s\""])).outcome
          ⟨σ.scopes, output, log, cancelled, serial, splices⟩).1 := trivial
    exact Ends.of_settled orderly (fun agrees => agrees.evaluate 0 _) settled
  have stable : ∀ {expr : Expr} {value : Value} (after : State → State),
      (∀ f : Renaming, f • value = value) → (∀ τ : State, τ.Keeps (after τ)) →
      (∀ (τ : State) name, τ.Has name → (after τ).Has name) →
      (∀ τ : State, τ.scopes = σ.scopes → Evaluates Host.counting 0 expr τ (.ok value, after τ)) →
      Stable Host.counting 0 σ (Passes Host.counting 0 .last start [step] σ) expr := by
    intro expr value after known keeps grows each
    refine ⟨value, after σ, each σ rfl, keeps σ, fun τ passes => ?_⟩
    refine ⟨σ.same, value, after τ, each τ (passed τ passes),
      keeps τ, ?_, State.like_same (.of_fixed known)⟩
    exact {
      le := le_refl _
      left_has := grows σ
      new := fun name has apart => absurd has apart
      scopes := fun id has apart => absurd has apart }
  refine ⟨orderly, rfl, ?_, ?_, rfl, rfl⟩
  · refine List.forall_mem_cons.2 ⟨?_, List.forall_mem_singleton.2 ?_⟩
    · exact stable id (fun _ => rfl) (fun _ _ _ => rfl) (fun _ _ has => has) pack
    · exact stable (fun τ => { τ with log := τ.log ++ [.text "s"] }) (fun _ => rfl) (fun _ _ _ => rfl)
        (fun _ _ has => has) record
  · intro operator state ends
    cases ends.unique (pack σ rfl)
    rfl

end HostLisp
