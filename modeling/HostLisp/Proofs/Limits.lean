import HostLisp.Proofs.Containment
import HostLisp.Proofs.Depth
import HostLisp.Proofs.RoundTrip

/-!
Limits on nesting. Reading and evaluation may nest up to a limit each. A wider limit makes a difference
only where the narrower one is met, and where it is met the outcome says so: the reader's error is kept,
and lack of depth gets out of every run as the crash itself or as what a call or the session makes of
it.
-/

namespace HostLisp

/-- Whether a fault tells that a limit on nesting was met. -/
def Fault.isLimit : Fault → Bool
  | .failure (.tooDeep _) => true
  | .failure (.read unread) => unread.error = .nestingTooDeep
  | fault => fault.isExhaustion

/-! ### Reading -/

namespace Reading

variable {limit wider : Nat} (more : limit ≤ wider)
include more

theorem enter_wider (reading : Reading) (frame : Frame) :
    reading.enter limit frame = .error .nestingTooDeep ∨
      reading.enter wider frame = reading.enter limit frame := by
  unfold enter
  split
  · next room => exact .inr (if_pos (Nat.lt_of_lt_of_le room more))
  · exact .inl rfl

theorem step_wider (reading : Reading) (token : Token) :
    reading.step limit token = .error .nestingTooDeep ∨
      reading.step wider token = reading.step limit token := by
  unfold step
  cases token.kind with
  | openList => exact enter_wider more reading (.list [])
  | openVector => exact enter_wider more reading (.vector [])
  | quote => exact enter_wider more reading .quote
  | _ => exact .inr rfl

theorem run_wider (tokens : List Token) : ∀ reading : Reading,
    (reading.run limit tokens).2 = some .nestingTooDeep ∨
      reading.run wider tokens = reading.run limit tokens := by
  induction tokens with
  | nil => exact fun reading => .inr rfl
  | cons token tokens ih =>
    intro reading
    simp only [run]
    rcases step_wider more reading token with met | same
    · rw [met]
      exact .inl rfl
    · rw [same]
      cases reading.step limit token with
      | ok next => exact ih next
      | error error => exact .inr rfl

end Reading

namespace Expr

variable {limit wider : Nat} (more : limit ≤ wider)
include more

theorem readForms_wider (tokens : List Token) :
    (readForms tokens limit).2 = some .nestingTooDeep ∨
      readForms tokens wider = readForms tokens limit := by
  refine (Reading.run_wider more tokens Reading.start).imp id fun same => ?_
  unfold readForms
  rw [same]

theorem readSource_wider (source : String) :
    (readSource source limit).2 = some .nestingTooDeep ∨
      readSource source wider = readSource source limit := by
  unfold readSource
  simp only
  split
  · exact .inr rfl
  · exact readForms_wider more _

theorem parseTokens_wider (tokens : List Token) (name : Option String) :
    parseTokens tokens name limit = .error ⟨.nestingTooDeep, name⟩ ∨
      parseTokens tokens name wider = parseTokens tokens name limit := by
  unfold parseTokens
  refine (readForms_wider more tokens).imp (fun met => ?_) (congrArg (ofOutcome name))
  rw [ofOutcome, met]

theorem parse_wider (source : String) (name : Option String) :
    parse source name limit = .error ⟨.nestingTooDeep, name⟩ ∨
      parse source name wider = parse source name limit := by
  unfold parse
  refine (readSource_wider more source).imp (fun met => ?_) (congrArg (ofOutcome name))
  rw [ofOutcome, met]

end Expr

/-! ### Running out of depth -/

theorem Fault.isExhaustion_surface (trail : List (Option String)) {fault : Fault}
    (exhausted : fault.isExhaustion = true) : (fault.surface trail).isExhaustion = true := by
  induction trail with
  | nil => exact exhausted
  | cons callee trail ih =>
    cases callee with
    | none => exact ih
    | some callee =>
      cases fault with
      | failure failure => exact exhausted
      | crash cause =>
        cases cause with
        | recursion => rfl
        | _ => cases exhausted

namespace Session

def readerWithin (limit : Nat) : Reader := fun source name => Expr.parse source (some name) limit

variable {host : Host} {limit wider depth deeper : Nat}

theorem isLimit_guardDepth {act : Eval Value} {state after : State} {fault : Fault}
    (ran : act.outcome state = (.error fault, after)) (exhausted : fault.isExhaustion = true)
    (label : String) :
    ∃ told, (guardDepth label act).outcome state = (.error told, after) ∧ told.isLimit = true := by
  rw [outcome_guardDepth, ran]
  cases fault with
  | failure failure =>
    refine ⟨_, rfl, ?_⟩
    cases failure with
    | aborted callee cause => exact exhausted
    | _ => cases exhausted
  | crash cause =>
    cases cause with
    | recursion => exact ⟨_, rfl, rfl⟩
    | _ => cases exhausted

theorem settled_of_guardDepth {act : Eval Value} {state : State} {label : String}
    (other : ∀ fault, ((guardDepth label act).outcome state).1 = .error fault → fault.isLimit = false) :
    Settled (act.outcome state).1 := by
  rcases ran : act.outcome state with ⟨result, after⟩
  cases result with
  | ok value => trivial
  | error fault =>
    cases exhausted : fault.isExhaustion with
    | false => exact exhausted
    | true =>
      obtain ⟨told, guarded, limit⟩ := isLimit_guardDepth ran exhausted label
      rw [other told (congrArg Prod.fst guarded)] at limit
      cases limit

theorem execute_wider (orderly : host.Orderly) (reads : limit ≤ wider) (runs : depth ≤ deeper)
    (root : ScopeId) (usual source : String) (name : Option String) (state : State)
    (other : ∀ fault, ((execute (readerWithin limit) root usual source name
      (Engine.ofDepth host depth)).outcome state).1 = .error fault → fault.isLimit = false) :
    (execute (readerWithin wider) root usual source name (Engine.ofDepth host deeper)).outcome state =
      (execute (readerWithin limit) root usual source name (Engine.ofDepth host depth)).outcome
        state := by
  rw [outcome_execute rfl] at other
  rw [outcome_execute rfl, outcome_execute rfl]
  generalize submissionName usual name = label at other ⊢
  rcases Expr.parse_wider reads source (some label) with met | same
  · rw [show readerWithin limit source label = _ from met] at other
    cases other _ rfl
  · rw [show readerWithin wider source label = readerWithin limit source label from same]
    cases parsed : readerWithin limit source label with
    | error failure => rfl
    | ok expr =>
      rw [parsed] at other
      have agrees := (Engine.agrees_ofDepth id orderly runs).evaluate root expr state
        (settled_of_guardDepth other)
      simp only [outcome_guardDepth, agrees]

end Session

namespace Value

theorem convertFirst_crash_iff (types : List TypeExpr) (value : Value) (crash : Crash) :
    convertFirst types value = .error crash ↔
      ∃ front member back, types = front ++ member :: back ∧
        (∀ type ∈ front, ∃ refusal, convert type value = .error (.refused refusal)) ∧
        convert member value = .error (.crashed crash) := by
  induction types with
  | nil => simp [convertFirst]
  | cons type types ih =>
    constructor
    · intro crashed
      simp only [convertFirst] at crashed
      split at crashed
      · cases crashed
      · next refusal refuses =>
        obtain ⟨front, member, back, rfl, refused, crashes⟩ := ih.mp crashed
        exact ⟨type :: front, member, back, rfl,
          List.forall_mem_cons.mpr ⟨⟨refusal, refuses⟩, refused⟩, crashes⟩
      · next cause crashes =>
        cases crashed
        exact ⟨[], type, types, rfl, List.forall_mem_nil _, crashes⟩
    · rintro ⟨front, member, back, split, refused, crashes⟩
      cases front with
      | nil =>
        cases split
        simp only [convertFirst, crashes]
      | cons first front =>
        cases split
        obtain ⟨⟨refusal, refuses⟩, others⟩ := List.forall_mem_cons.mp refused
        have crashed := ih.mpr ⟨front, member, back, rfl, others, crashes⟩
        simp only [convertFirst, refuses, crashed]

theorem convert_union_crash_iff (spelling : TypeExpr.UnionForm) (members : List TypeExpr)
    (value : Value) (crash : Crash) :
    convert (.union spelling members) value = .error (.crashed crash) ↔
      convertFirst members value = .error crash := by
  simp only [convert]
  split <;> simp_all [Value.refuse]

end Value

/-- A wider limit changes nothing but the outcomes that say that the narrower one was met, for values
and failures and for the state left. Conversely a lack of depth inside a run gets out of it: calls and
the session say it in their own words, and a choice of conversions passes on every crash that it
meets. -/
theorem limits_only_fail {host : Host} (orderly : host.Orderly) {limit wider depth deeper : Nat}
    (reads : limit ≤ wider) (runs : depth ≤ deeper) :
    (∀ (tokens : List Token) (name : Option String),
      Expr.parseTokens tokens name limit = .error ⟨.nestingTooDeep, name⟩ ∨
        Expr.parseTokens tokens name wider = Expr.parseTokens tokens name limit) ∧
    (∀ (source : String) (name : Option String),
      Expr.parse source name limit = .error ⟨.nestingTooDeep, name⟩ ∨
        Expr.parse source name wider = Expr.parse source name limit) ∧
    (∀ (scope : ScopeId) (expr : Expr) (state : State),
      Settled (((Engine.ofDepth host depth).evaluate scope expr).outcome state).1 →
        ((Engine.ofDepth host deeper).evaluate scope expr).outcome state =
          ((Engine.ofDepth host depth).evaluate scope expr).outcome state) ∧
    (∀ (operator : Value) (arguments : List Value) (state : State),
      Settled (((Engine.ofDepth host depth).invoke operator arguments).outcome state).1 →
        ((Engine.ofDepth host deeper).invoke operator arguments).outcome state =
          ((Engine.ofDepth host depth).invoke operator arguments).outcome state) ∧
    (∀ (root : ScopeId) (usual source : String) (name : Option String) (state : State),
      let execute := fun limit depth =>
        (Session.execute (Session.readerWithin limit) root usual source name
          (Engine.ofDepth host depth)).outcome state
      (∀ fault, (execute limit depth).1 = .error fault → fault.isLimit = false) →
        execute wider deeper = execute limit depth) ∧
    (∀ {α γ : Type} (inner : Nat) (piece : Calls → Eval γ) (reached after : State) (origin : Fault)
      (place : Option ScopeId) (run : Calls → Eval α) (state : State) (trail : List (Option String)),
      Within host .orderly inner piece reached place depth run state trail →
      (piece (Engine.ofDepth host inner).toCalls).outcome reached = (.error origin, after) →
      origin.isExhaustion = true →
        ∃ fault, (run (Engine.ofDepth host depth).toCalls).outcome state = (.error fault, after) ∧
          fault.isExhaustion = true) ∧
    (∀ (label : String) (act : Eval Value) (state after : State) (fault : Fault),
      act.outcome state = (.error fault, after) → fault.isExhaustion = true →
        ∃ told, (Session.guardDepth label act).outcome state = (.error told, after) ∧
          told.isLimit = true) ∧
    ∀ (spelling : TypeExpr.UnionForm) (members : List TypeExpr) (value : Value) (crash : Crash),
      Value.convert (.union spelling members) value = .error (.crashed crash) ↔
        ∃ front member back, members = front ++ member :: back ∧
          (∀ type ∈ front, ∃ refusal, Value.convert type value = .error (.refused refusal)) ∧
          Value.convert member value = .error (.crashed crash) := by
  have agrees := Engine.agrees_ofDepth id orderly runs
  refine ⟨Expr.parseTokens_wider reads, Expr.parse_wider reads, agrees.evaluate, agrees.invoke, ?_, ?_,
    ?_, ?_⟩
  · intro root usual source name state execute other
    exact Session.execute_wider orderly reads runs root usual source name state other
  · intro α γ inner piece reached after origin place run state trail within raised exhausted
    exact ⟨_, within.surfaces id raised, Fault.isExhaustion_surface trail exhausted⟩
  · intro label act state after fault ran exhausted
    exact Session.isLimit_guardDepth ran exhausted label
  · intro spelling members value crash
    rw [Value.convert_union_crash_iff, Value.convertFirst_crash_iff]

/-- A call that needs one bracket of the reader and three levels of evaluation. -/
theorem limits_only_fail_call :
    let body : Value := .closure [] [.vector []] (some 0) ⟨1, 0⟩
    let state : State := { scopes := Store.empty.fresh.1.bind 0 "f" body }
    let execute := fun limit depth =>
      (Session.execute (Session.readerWithin limit) 0 "usual" "(f)" none
        (Engine.ofDepth Host.catalogue depth)).outcome state
    execute 1000 1000 = execute 1 3 ∧ (execute 1 3).1 = .ok (.list []) ∧
      (execute 1 2).1 = .error (.failure (.aborted "lambda" .recursion)) ∧
      (execute 1 1).1 = .error (.failure (.tooDeep "usual")) ∧
      (execute 0 3).1 = .error (.failure (.read ⟨.nestingTooDeep, some "usual"⟩)) := by
  intro body state execute
  have opens : Token.first? '(' ['f', ')'] = some (.openList, ['('], ['f', ')']) := by decide +kernel
  have letter : Token.first? 'f' [')'] = some (.symbol, ['f'], [')']) := by decide +kernel
  have closes : Token.first? ')' [] = some (.closeList, [')'], []) := by decide +kernel
  have lexes : Token.Lexes "(f)".toList [⟨.openList, "("⟩, ⟨.symbol, "f"⟩, ⟨.closeList, ")"⟩] [] :=
    .token opens (.token letter (.one closes))
  have reads : Session.readerWithin 1 "(f)" "usual" = .ok (.list [.symbol "f"]) := by
    rw [Session.readerWithin, Expr.parse_of_lexes lexes]
    rfl
  have tooDeep : Session.readerWithin 0 "(f)" "usual" = .error ⟨.nestingTooDeep, some "usual"⟩ := by
    rw [Session.readerWithin, Expr.parse_of_lexes lexes]
    rfl
  have label : Session.submissionName "usual" none = "usual" := rfl
  have value : (execute 1 3).1 = .ok (.list []) := by
    simp only [execute, Session.outcome_execute label, reads]
    rfl
  obtain ⟨_, _, _, _, executes, _⟩ := limits_only_fail Native.abides_catalogue
    (by decide : 1 ≤ 1000) (by decide : 3 ≤ 1000)
  refine ⟨executes 0 "usual" "(f)" none state fun fault failed => ?_, value, ?_, ?_, ?_⟩
  · cases value.symm.trans failed
  all_goals simp only [execute, Session.outcome_execute label, reads, tooDeep]
  all_goals rfl

end HostLisp
