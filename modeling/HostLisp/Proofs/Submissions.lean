import HostLisp.Proofs.Containment
import HostLisp.Proofs.Growth
import HostLisp.Proofs.RoundTrip

/-!
A run of a session is the fold of its submissions. They are executed in turn, each from the state that
the one before it left, until none is left, until one has left the session cancelled, or until one ends
in a crash, which no session can report.
-/

namespace HostLisp

namespace Session

def pending (sources : List String) : List String :=
  sources.filter fun source => !Text.isBlankText source

def stateAfter (execute : String → Eval Value) (sources : List String) (state : State) : State :=
  sources.foldl (fun state source => ((execute source).outcome state).2) state

theorem stateAfter_cons {execute : String → Eval Value} {source : String} {state middle : State}
    {outcome : Except Fault Value} (ran : (execute source).outcome state = (outcome, middle))
    (sources : List String) :
    stateAfter execute (source :: sources) state = stateAfter execute sources middle := by
  unfold stateAfter
  rw [List.foldl_cons, ran]

def isCrash : Except Fault Value → Bool
  | .error (.crash _) => true
  | _ => false

theorem isCrash_of_other {outcome : Except Fault Value}
    (other : ∀ cause, outcome = .error (.crash cause) → False) : isCrash outcome = false := by
  unfold isCrash
  split
  · exact (other _ rfl).elim
  · rfl

/-- The outcomes of a run and the state after it, told by the submissions in front of each other. -/
structure Folds (execute : String → Eval Value) (sources : List String) (state : State)
    (outcomes : List (Except Fault Value)) (after : State) : Prop where
  count : outcomes.length ≤ sources.length
  /-- A submission with an outcome was started before the session was cancelled, from the state that
  all submissions in front of it left. -/
  each : ∀ front source back, sources = front ++ source :: back → front.length < outcomes.length →
    (stateAfter execute front state).cancelled = false ∧
      outcomes[front.length]? = some ((execute source).outcome (stateAfter execute front state)).1
  final : after = stateAfter execute (sources.take outcomes.length) state
  stops : outcomes.length = sources.length ∨ after.cancelled = true ∨
    ∃ outcome ∈ outcomes.getLast?, isCrash outcome = true
  reported : ∀ outcome ∈ outcomes.dropLast, isCrash outcome = false

namespace Folds

variable {execute : String → Eval Value} {sources : List String} {state middle after : State}
  {source : String} {outcome : Except Fault Value} {outcomes : List (Except Fault Value)}

theorem done (state : State) : Folds execute [] state [] state :=
  ⟨Nat.le_refl _, fun _ _ _ _ none => absurd none (Nat.not_lt_zero _), rfl, .inl rfl,
    List.forall_mem_nil _⟩

theorem cancelled (set : state.cancelled = true) : Folds execute sources state [] state :=
  ⟨Nat.zero_le _, fun _ _ _ _ none => absurd none (Nat.not_lt_zero _), rfl, .inr (.inl set),
    List.forall_mem_nil _⟩

theorem each_cons (clear : state.cancelled = false)
    (ran : (execute source).outcome state = (outcome, middle))
    (rest : ∀ front next back, sources = front ++ next :: back → front.length < outcomes.length →
      (stateAfter execute front middle).cancelled = false ∧ outcomes[front.length]? =
        some ((execute next).outcome (stateAfter execute front middle)).1) :
    ∀ front next back, source :: sources = front ++ next :: back →
      front.length < (outcome :: outcomes).length →
      (stateAfter execute front state).cancelled = false ∧ (outcome :: outcomes)[front.length]? =
        some ((execute next).outcome (stateAfter execute front state)).1 := by
  intro front next back split within
  cases front with
  | nil =>
    cases split
    exact ⟨clear, congrArg some (congrArg Prod.fst ran).symm⟩
  | cons first front =>
    injection split with same split
    subst same
    rw [stateAfter_cons ran]
    exact rest front next back split (Nat.lt_of_succ_lt_succ within)

theorem crashed {cause : Crash} (clear : state.cancelled = false)
    (ran : (execute source).outcome state = (.error (.crash cause), after)) :
    Folds execute (source :: sources) state [.error (.crash cause)] after :=
  ⟨Nat.succ_le_succ (Nat.zero_le _),
    each_cons clear ran fun _ _ _ _ none => absurd none (Nat.not_lt_zero _),
    (congrArg Prod.snd ran).symm, .inr (.inr ⟨_, rfl, rfl⟩), List.forall_mem_nil _⟩

theorem submit (clear : state.cancelled = false)
    (ran : (execute source).outcome state = (outcome, middle)) (ordinary : isCrash outcome = false)
    (rest : Folds execute sources middle outcomes after) :
    Folds execute (source :: sources) state (outcome :: outcomes) after := by
  refine ⟨Nat.succ_le_succ rest.count, each_cons clear ran rest.each, ?_, ?_, ?_⟩
  · rw [rest.final, List.length_cons, List.take_succ_cons, stateAfter_cons ran]
  · refine rest.stops.imp (congrArg (· + 1)) (.imp_right ?_)
    rintro ⟨last, found, crashed⟩
    rw [List.getLast?_cons, found]
    exact ⟨last, rfl, crashed⟩
  · cases outcomes with
    | nil => exact List.forall_mem_nil _
    | cons next outcomes => exact List.forall_mem_cons.mpr ⟨ordinary, rest.reported⟩

end Folds

section

variable (read : Reader) (root : ScopeId) (usual : String) (name : Option String) (engine : Engine)

theorem run_cancelled {state : State} (set : state.cancelled = true) (sources : List String) :
    (run read root usual name sources engine).run state = ([], state) := by
  cases sources with
  | nil => rfl
  | cons source sources => rw [run_cons, if_pos set]

/-- A run goes on where the one before it ended, unless that one ended in a crash. -/
theorem run_append (first second : List String) (state : State) :
    (run read root usual name (first ++ second) engine).run state =
      let front := (run read root usual name first engine).run state
      let back := (run read root usual name second engine).run front.2
      if front.1.any isCrash then front else (front.1 ++ back.1, back.2) := by
  induction first generalizing state with
  | nil => rfl
  | cons source first ih =>
    rw [List.cons_append, run_cons, run_cons]
    split
    · next set => simp [run_cancelled read root usual name engine set]
    split
    · exact ih state
    split
    · rfl
    · next other _ =>
      rw [ih]
      simp only [List.any_cons, isCrash_of_other other, Bool.false_or]
      split
      · rfl
      · rfl

end

end Session

end HostLisp
