import HostLisp.Proofs.Within
import HostLisp.Session

/-!
How faults travel. A fault arises where code acts on its own, where something is written, or where
there is no depth left; from there it ends every run around it. A failure leaves all calls as it is. A
crash becomes a failure at the innermost invocation around it and is never met again. Only what arises
outside all invocations can leave evaluation as a crash: a text that cannot be written, a crash of a
function that an operator calls, or lack of depth.
-/

namespace HostLisp

/-- A fault as it leaves calls, innermost first. Only invocations change it. -/
def Fault.surface : List (Option String) → Fault → Fault
  | [], fault => fault
  | none :: outer, fault => surface outer fault
  | some callee :: _, .crash cause => .failure (.aborted callee cause)
  | some _ :: _, fault => fault

def Uncontained (trail : List (Option String)) : Prop := ∀ call ∈ trail, call = none

namespace Fault

@[simp] theorem surface_failure (trail : List (Option String)) (failure : Failure) :
    surface trail (.failure failure) = .failure failure := by
  induction trail with
  | nil => rfl
  | cons call trail ih =>
    cases call with
    | none => exact ih
    | some callee => rfl

theorem surface_append (trail outer : List (Option String)) (fault : Fault) :
    surface (trail ++ outer) fault = surface outer (surface trail fault) := by
  induction trail with
  | nil => rfl
  | cons call trail ih =>
    cases call with
    | none => exact ih
    | some callee =>
      cases fault with
      | failure failure => exact (surface_failure outer failure).symm
      | crash cause => exact (surface_failure outer _).symm

theorem surface_of_uncontained {trail : List (Option String)} (uncontained : Uncontained trail)
    (fault : Fault) : surface trail fault = fault := by
  induction trail with
  | nil => rfl
  | cons call trail ih =>
    obtain ⟨rfl, rest⟩ := List.forall_mem_cons.mp uncontained
    exact ih rest

theorem uncontained_of_surface {trail : List (Option String)} {origin : Fault} {cause : Crash}
    (crashed : surface trail origin = .crash cause) : Uncontained trail ∧ origin = .crash cause := by
  induction trail with
  | nil => exact ⟨List.forall_mem_nil _, crashed⟩
  | cons call trail ih =>
    cases call with
    | none =>
      obtain ⟨rest, same⟩ := ih crashed
      exact ⟨List.forall_mem_cons.mpr ⟨rfl, rest⟩, same⟩
    | some callee =>
      cases origin with
      | failure failure => cases crashed
      | crash other => cases crashed

end Fault

theorem Eval.outcome_contain_error {α : Type} {act : Eval α} {state after : State} {fault : Fault}
    (ran : act.outcome state = (.error fault, after)) (callee : String) :
    (Eval.contain callee act).outcome state = (.error (fault.surface [some callee]), after) := by
  rw [Eval.outcome_contain, ran]
  cases fault <;> rfl

theorem Within.surfaces {host : Host} {leeway : Leeway} (passes : ¬leeway.recovers) {γ : Type}
    {inner : Nat} {piece : Calls → Eval γ} {reached after : State} {origin : Fault}
    (raised : (piece (Engine.ofDepth host inner).toCalls).outcome reached = (.error origin, after))
    {α : Type} {place : Option ScopeId} {depth : Nat} {run : Calls → Eval α} {state : State}
    {trail : List (Option String)}
    (within : Within host leeway inner piece reached place depth run state trail) :
    (run (Engine.ofDepth host depth).toCalls).outcome state =
      (.error (origin.surface trail), after) := by
  induction within with
  | here => exact raised
  | first _ _ _ ih => exact Eval.outcome_bind_error ih
  | later _ ran _ ih => exact (Eval.outcome_bind_ok ran).trans ih
  | @block _ _ _ around _ state _ _ ih =>
    exact (Eval.outcome_bind_ok (Eval.outcome_child around state)).trans ih
  | evaluating _ ih | roaming _ _ ih =>
    simp only [Engine.evaluate_ofDepth]
    exact ih
  | invoking invokable _ ih =>
    simp only [Engine.invoke_invokable host _ invokable, Fault.surface_append]
    exact Eval.outcome_contain_error ih _
  | refusing other _ ih =>
    simp only [Engine.invoke_other host _ other]
    exact ih
  | expanding _ ih =>
    rw [Fault.surface_append]
    exact ih
  | tried allowed | handled allowed => exact absurd allowed passes

def Fault.Fails (fault : Fault) : Prop := ∃ failure, fault = .failure failure

inductive Origin (host : Host) (may : Fault → Prop) : {γ : Type} → Nat → (Calls → Eval γ) → Prop where
  | own {γ : Type} {depth : Nat} {act : Eval γ} (acts : act.Own may) :
      Origin host may depth fun _ => act
  | write {depth : Nat} {run : Calls → Eval Value} {flaw? : Nat → Store → Option Flaw}
      (writes : Writes host run flaw?) : Origin host may depth run
  | evaluateDeeper (scope : ScopeId) (expr : Expr) :
      Origin host may 0 fun calls => calls.evaluate scope expr
  | invokeDeeper (operator : Value) (arguments : List Value) :
      Origin host may 0 fun calls => calls.invoke operator arguments

theorem Origin.weaken {host : Host} {may other : Fault → Prop} {γ : Type} {depth : Nat}
    {piece : Calls → Eval γ} (arises : Origin host may depth piece)
    (weaker : ∀ fault, may fault → other fault) : Origin host other depth piece := by
  cases arises with
  | own acts => exact .own (acts.weaken weaker)
  | write writes => exact .write writes
  | evaluateDeeper scope expr => exact .evaluateDeeper scope expr
  | invokeDeeper operator arguments => exact .invokeDeeper operator arguments

/-- A fault that a run ends with, traced back to where it arises. Outside all calls own actions end
only with the faults they may. -/
def Raised (host : Host) (leeway : Leeway) (may : Fault → Prop) {α : Type} (place : Option ScopeId)
    (depth : Nat) (run : Calls → Eval α) (state : State) (fault : Fault) (after : State) : Prop :=
  ∃ (γ : Type) (inner : Nat) (piece : Calls → Eval γ) (reached : State)
    (trail : List (Option String)) (origin : Fault),
    Within host leeway inner piece reached place depth run state trail ∧
    Origin host (fun fault => trail = [] → may fault) inner piece ∧
    (piece (Engine.ofDepth host inner).toCalls).outcome reached = (.error origin, after) ∧
    fault = origin.surface trail

namespace Raised

variable {host : Host} {leeway : Leeway} {may : Fault → Prop} {α β : Type}
  {place : Option ScopeId} {depth : Nat} {run : Calls → Eval α} {state after : State} {fault : Fault}

theorem here (arises : Origin host may depth run)
    (raised : (run (Engine.ofDepth host depth).toCalls).outcome state = (.error fault, after)) :
    Raised host leeway may place depth run state fault after :=
  ⟨α, depth, run, state, [], fault, .here, arises.weaken fun _ allowed _ => allowed, raised, rfl⟩

theorem weaken {other : Fault → Prop} (raised : Raised host leeway may place depth run state fault after)
    (weaker : ∀ fault, may fault → other fault) :
    Raised host leeway other place depth run state fault after := by
  obtain ⟨γ, inner, piece, reached, trail, origin, within, arises, ran, same⟩ := raised
  exact ⟨γ, inner, piece, reached, trail, origin, within,
    arises.weaken fun fault allowed outside => weaker fault (allowed outside), ran, same⟩

theorem lift {outerPlace : Option ScopeId} {outer : Nat} {whole : Calls → Eval β} {start : State}
    (raised : Raised host leeway may place depth run state fault after)
    (covers : ∀ {γ : Type} {inner : Nat} {piece : Calls → Eval γ} {reached : State}
      {trail : List (Option String)},
        Within host leeway inner piece reached place depth run state trail →
          Within host leeway inner piece reached outerPlace outer whole start trail) :
    Raised host leeway may outerPlace outer whole start fault after := by
  obtain ⟨γ, inner, piece, reached, trail, origin, within, arises, ran, same⟩ := raised
  exact ⟨γ, inner, piece, reached, trail, origin, covers within, arises, ran, same⟩

theorem inCall {outerPlace : Option ScopeId} {outer : Nat} {whole : Calls → Eval β} {start : State}
    {call : Option String} (raised : Raised host leeway (fun _ => True) place depth run state fault after)
    (covers : ∀ {γ : Type} {inner : Nat} {piece : Calls → Eval γ} {reached : State}
      {trail : List (Option String)},
        Within host leeway inner piece reached place depth run state trail →
          Within host leeway inner piece reached outerPlace outer whole start (trail ++ [call])) :
    Raised host leeway may outerPlace outer whole start (fault.surface [call]) after := by
  obtain ⟨γ, inner, piece, reached, trail, origin, within, arises, ran, same⟩ := raised
  refine ⟨γ, inner, piece, reached, trail ++ [call], origin, covers within,
    arises.weaken fun _ _ outside => ?_, ran, ?_⟩
  · exact absurd outside (List.append_ne_nil_of_right_ne_nil trail (List.cons_ne_nil _ _))
  · rw [Fault.surface_append, same]

end Raised

structure Engine.Traced (host : Host) (leeway : Leeway) (depth : Nat) : Prop where
  evaluate : ∀ scope expr state fault after,
    ((Engine.ofDepth host depth).evaluate scope expr).outcome state = (.error fault, after) →
      Raised host leeway Fault.Fails (some scope) depth (fun calls => calls.evaluate scope expr)
        state fault after
  roam : leeway.roams → ∀ place scope expr state fault after,
    ((Engine.ofDepth host depth).evaluate scope expr).outcome state = (.error fault, after) →
      Raised host leeway Fault.Fails place depth (fun calls => calls.evaluate scope expr) state
        fault after
  invoke : ∀ place operator arguments state fault after,
    ((Engine.ofDepth host depth).invoke operator arguments).outcome state = (.error fault, after) →
      Raised host leeway Fault.Fails place depth (fun calls => calls.invoke operator arguments)
        state fault after

/-- One step: the faults of code are traced back if those of the calls it makes are. -/
theorem Code.raised {host : Host} {leeway : Leeway} (passes : ¬leeway.recovers) {may : Fault → Prop}
    (fails : ∀ fault, fault.Fails → may fault) {α : Type} {place : Option ScopeId}
    {run : Calls → Eval α} (code : Code host leeway may place run) {depth : Nat}
    (traced : Engine.Traced host leeway depth) {state after : State} {fault : Fault}
    (ran : (run (Engine.ofDepth host depth).toCalls).outcome state = (.error fault, after)) :
    Raised host leeway may place depth run state fault after := by
  induction code generalizing state with
  | own acts => exact .here (.own acts) ran
  | write writes => exact .here (.write writes) ran
  | bindHere scope name value => cases ran
  | bindRoot scope name value => cases ran
  | evaluate scope expr => exact (traced.evaluate scope expr state fault after ran).weaken fails
  | invoke operator arguments =>
    exact (traced.invoke _ operator arguments state fault after ran).weaken fails
  | block around _ ih =>
    rw [Eval.outcome_bind_ok (Eval.outcome_child around state)] at ran
    exact (ih state.scopes.size fails ran).lift .block
  | @andThen _ _ _ _ first next before rest start continued =>
    rcases opening : (first (Engine.ofDepth host depth).toCalls).outcome state with ⟨result, middle⟩
    cases result with
    | error earlier =>
      rw [Eval.outcome_bind_error opening] at ran
      injection ran with same kept
      injection same with same
      subst same kept
      exact (start fails opening).lift (.first before.unlimited fun value => (rest value).unlimited)
    | ok value =>
      rw [Eval.outcome_bind_ok opening] at ran
      exact (continued value fails ran).lift (.later before.unlimited opening)
  | expand _ ih => exact (ih (fun _ _ => trivial) ran).inCall .expanding
  | roam allowed scope expr =>
    exact (traced.roam allowed _ scope expr state fault after ran).weaken fails
  | recover allowed => exact absurd allowed passes

section

variable (host : Host) (leeway : Leeway) {α : Type} (place : Option ScopeId) (depth : Nat)
  (run : Calls → Eval α) (state : State) (cause : Crash) (after : State)

/-- A crash arises in a run outside all invocations: something that is written has a flaw, or a function
that an operator calls crashes. -/
inductive Escapes : Prop where
  | written {inner : Nat} {piece : Calls → Eval Value} {flaw? : Nat → Store → Option Flaw} {flaw : Flaw}
      {trail : List (Option String)} (writes : Writes host piece flaw?)
      (uncontained : Uncontained trail)
      (within : Within host leeway inner piece after place depth run state trail)
      (flawed : flaw? inner after.scopes = some flaw) (same : cause = flaw.crash) : Escapes
  | expanded {γ : Type} {inner : Nat} {act : Eval γ} {reached : State} {trail : List (Option String)}
      (acts : act.Own fun _ => True) (uncontained : Uncontained trail) (called : trail ≠ [])
      (within : Within host leeway inner (fun _ => act) reached place depth run state trail)
      (crashed : act.outcome reached = (.error (.crash cause), after)) : Escapes

end

theorem Raised.crash {host : Host} {leeway : Leeway} {α : Type} {place : Option ScopeId} {depth : Nat}
    {run : Calls → Eval α} {state after : State} {cause : Crash}
    (raised : Raised host leeway Fault.Fails place depth run state (.crash cause) after) :
    cause = .recursion ∨ Escapes host leeway place depth run state cause after := by
  obtain ⟨γ, inner, piece, reached, trail, origin, within, arises, ran, same⟩ := raised
  obtain ⟨uncontained, rfl⟩ := Fault.uncontained_of_surface same.symm
  cases arises with
  | own acts =>
    have called : trail ≠ [] := by
      intro outside
      obtain ⟨_, failed⟩ := acts.faults reached _ (congrArg Prod.fst ran) outside
      cases failed
    exact .inr (.expanded (acts.weaken fun _ _ => trivial) uncontained called within ran)
  | @write _ piece flaw? writes =>
    obtain ⟨flaw, flawed, rfl⟩ := writes.flaw_of_crash (congrArg Prod.fst ran)
    rw [writes.outcome_of_flaw reached flawed] at ran
    injection ran with _ kept
    subst kept
    rw [Engine.room_ofDepth] at flawed
    exact .inr (.written writes uncontained within flawed rfl)
  | evaluateDeeper scope expr =>
    injection ran with same _
    injection same with same
    injection same with same
    exact .inl same.symm
  | invokeDeeper operator arguments =>
    injection ran with same _
    injection same with same
    injection same with same
    exact .inl same.symm

theorem Writes.crash_of_flaw {host : Host} {piece : Calls → Eval Value}
    {flaw? : Nat → Store → Option Flaw} (writes : Writes host piece flaw?) {inner : Nat} (state : State)
    {flaw : Flaw} (flawed : flaw? inner state.scopes = some flaw) :
    (piece (Engine.ofDepth host inner).toCalls).outcome state =
      (.error (.crash flaw.crash), state) :=
  writes.outcome_of_flaw state (by rw [Engine.room_ofDepth]; exact flawed)

theorem Session.outcome_execute {read : Session.Reader} {source label : String} {name : Option String}
    {usual : String} (labelled : Session.submissionName usual name = label) (root : ScopeId)
    (engine : Engine) (state : State) :
    (Session.execute read root usual source name engine).outcome state =
      match read source label with
      | .ok expr => (Session.guardDepth label (engine.evaluate root expr)).outcome state
      | .error failure => (.error (.failure (.read failure)), state) := by
  subst labelled
  unfold Session.execute
  rw [Eval.outcome_bind, Eval.outcome_ofExcept]
  cases read source (Session.submissionName usual name) <;> rfl

theorem Escapes.outcome {host : Host} {leeway : Leeway} (passes : ¬leeway.recovers) {α : Type}
    {place : Option ScopeId} {depth : Nat} {run : Calls → Eval α} {state after : State} {cause : Crash}
    (escapes : Escapes host leeway place depth run state cause after) :
    (run (Engine.ofDepth host depth).toCalls).outcome state = (.error (.crash cause), after) := by
  cases escapes with
  | written writes uncontained within flawed same =>
    rw [within.surfaces passes (writes.crash_of_flaw after flawed),
      Fault.surface_of_uncontained uncontained, same]
  | expanded _ uncontained _ within crashed =>
    rw [within.surfaces passes crashed, Fault.surface_of_uncontained uncontained]

end HostLisp
