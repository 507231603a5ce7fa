import HostLisp.Proofs.Building
import HostLisp.Proofs.Submissions

/-!
Reading is over before evaluation begins. Evaluation makes number literals in one way only, by calling
their class with a text; all others that it meets were in the code it was given. So as long as no text
that is no number is made a literal, everything it binds or answers stays legible, and it never fails
to read.
-/

namespace HostLisp

open Value

/-! ### One step -/

/-- A computation from a state leaves legible scopes, finds legible values, and does not fail to
read. -/
structure Clear {α : Type} (found : α → List Value) (act : Eval α) (state : State) : Prop where
  store : (act.outcome state).2.scopes.Legible
  values : ∀ result, (act.outcome state).1 = .ok result → ∀ value ∈ found result, value.Legible
  quiet : ∀ fault, (act.outcome state).1 = .error fault → fault.isRead = false

namespace Clear

variable {α β : Type} {found : α → List Value} {act : Eval α} {state : State}

theorem of_own (acts : act.Own fun fault => fault.isRead = false) (legible : state.scopes.Legible)
    (values : ∀ result, (act.outcome state).1 = .ok result → ∀ value ∈ found result, value.Legible) :
    Clear found act state := by
  refine ⟨?_, values, acts.faults state⟩
  rw [acts.scopes state]
  exact legible

theorem of_ok {result : α} {after : State} (ran : act.outcome state = (.ok result, after))
    (store : after.scopes.Legible) (values : ∀ value ∈ found result, value.Legible) :
    Clear found act state := by
  refine ⟨?_, ?_, ?_⟩
  · rwa [ran]
  · rw [ran]
    rintro _ ⟨⟩
    exact values
  · rw [ran]
    rintro _ ⟨⟩

theorem andThen {next : α → Eval β} {further : β → List Value} (first : Clear found act state)
    (rest : ∀ result after, act.outcome state = (.ok result, after) → Clear further (next result) after) :
    Clear further (act >>= next) state := by
  obtain ⟨store, values, quiet⟩ := first
  rcases ran : act.outcome state with ⟨result, after⟩
  rw [ran] at store quiet
  cases result with
  | error fault =>
    have ended : (act >>= next).outcome state = (.error fault, after) := Eval.outcome_bind_error ran
    refine ⟨?_, ?_, ?_⟩
    · rwa [ended]
    · rw [ended]
      exact nofun
    · rw [ended]
      rintro other ⟨⟩
      exact quiet fault rfl
  | ok result =>
    obtain ⟨storeLater, valuesLater, quietLater⟩ := rest result after ran
    have ended : (act >>= next).outcome state = (next result).outcome after := Eval.outcome_bind_ok ran
    refine ⟨?_, ?_, ?_⟩
    · rwa [ended]
    · rwa [ended]
    · rwa [ended]

theorem recover {handler : Fault → Eval α} (tries : Clear found act state)
    (goesOn : ∀ fault after, act.outcome state = (.error fault, after) →
      Clear found (handler fault) after) : Clear found (tryCatch act handler) state := by
  have ran := Eval.outcome_tryCatch act handler state
  split at ran
  · next value after ended =>
    obtain ⟨store, values, -⟩ := tries
    rw [ended] at store values
    refine ⟨?_, ?_, ?_⟩
    · rwa [ran]
    · rwa [ran]
    · rw [ran]
      rintro _ ⟨⟩
  · next fault after ended =>
    obtain ⟨store, values, quiet⟩ := goesOn fault after ended
    refine ⟨?_, ?_, ?_⟩
    · rwa [ran]
    · rwa [ran]
    · rwa [ran]

theorem contain {act : Eval Value} (clear : Clear ([·]) act state) (callee : String) :
    Clear ([·]) (Eval.contain callee act) state := by
  obtain ⟨store, values, quiet⟩ := clear
  have ran := Eval.outcome_contain callee act state
  split at ran
  · next crashed =>
    rw [crashed] at store
    refine ⟨?_, ?_, ?_⟩
    · rwa [ran]
    · rw [ran]
      exact nofun
    · rw [ran]
      rintro fault ⟨⟩
      rfl
  · refine ⟨?_, ?_, ?_⟩
    · rwa [ran]
    · rwa [ran]
    · rwa [ran]

end Clear

section

variable {host : Host} {leeway : Leeway}

/-- An engine that evaluates and invokes legible values among legible scopes clearly, unless some literal
is built of a text that is no number. -/
structure Engine.Reads (host : Host) (leeway : Leeway) (depth : Nat) : Prop where
  evaluate : ∀ {place : Option ScopeId} {scope : ScopeId} {expr : Expr} {state : State},
    place = some scope ∨ leeway.roams → state.scopes.Legible → (Value.code expr).Legible →
      Clear ([·]) ((Engine.ofDepth host depth).evaluate scope expr) state ∨
        Builds host leeway place depth (fun calls => calls.evaluate scope expr) state
  invoke : ∀ {place : Option ScopeId} {operator : Value} {arguments : List Value} {state : State},
    state.scopes.Legible → (∀ value ∈ operator :: arguments, value.Legible) →
      Clear ([·]) ((Engine.ofDepth host depth).invoke operator arguments) state ∨
        Builds host leeway place depth (fun calls => calls.invoke operator arguments) state

theorem Handles.clear {may : Fault → Prop} {place : Option ScopeId} {given : List Value} {α : Type}
    {found : α → List Value} {run : Calls → Eval α}
    (handles : Handles host leeway Misspelt (fun fault => fault.isRead = false) may place given found run)
    (quiet : ∀ fault, may fault → fault.isRead = false) {depth : Nat}
    (reads : Engine.Reads host leeway depth) {state : State} (legible : state.scopes.Legible)
    (known : ∀ value ∈ given, value.Legible) :
    Clear found (run (Engine.ofDepth host depth).toCalls) state ∨
      Builds host leeway place depth run state := by
  induction handles generalizing state with
  | own acts gives =>
    refine .inl (.of_own (acts.weaken quiet) legible fun result ran value among => ?_)
    exact (gives state result ran value among).legible known
  | write writes gives =>
    refine .inl (.of_own (writes.own _) legible fun result ran => ?_)
    exact List.forall_mem_singleton.mpr ((gives _ state result ran).legible known)
  | @lookup _ scope given name allowed =>
    refine .inl (.of_own (Eval.own_lookup scope rfl) legible fun result ran => ?_)
    exact List.forall_mem_singleton.mpr (legible.resolve? (Eval.resolved_of_lookup ran))
  | @close _ place given around near params body drawn =>
    refine .inl (.of_own (Engine.own_closure params body around) legible fun result ran => ?_)
    cases ran
    refine List.forall_mem_singleton.mpr (legible_closure around _ fun expr among => ?_)
    exact (drawn expr among).legible known
  | bind name target drawn =>
    have bound (id : ScopeId) := legible.bind id name (drawn.legible known) none
    cases target with
    | current => exact .inl (.of_ok rfl (bound _) (List.forall_mem_nil _))
    | root => exact .inl (.of_ok rfl (bound _) (List.forall_mem_nil _))
  | evaluate drawn => exact reads.evaluate (.inl rfl) legible (drawn.legible known)
  | invoke drawn => exact reads.invoke legible fun value among => (drawn value among).legible known
  | @block _ _ _ around _ _ _ _ inside ih =>
    have ran := Eval.outcome_child around state
    refine (ih state.scopes.size quiet (legible.child around) known).imp (fun clear => ?_) fun builds =>
      builds.lift fun within => ⟨_, .block within⟩
    have entered : Clear (fun _ => []) (Eval.child around) state :=
      .of_ok ran (legible.child around) (List.forall_mem_nil _)
    refine entered.andThen fun inner after entered => ?_
    cases ran.symm.trans entered
    exact clear
  | @andThen _ _ _ _ _ _ _ start next first rest startClear restClear =>
    rcases startClear quiet legible known with clear | builds
    · rcases ran : (start (Engine.ofDepth host depth).toCalls).outcome state with ⟨result, middle⟩
      have store := clear.store
      have values := clear.values
      rw [ran] at store values
      cases result with
      | error fault =>
        refine .inl (clear.andThen fun result after ended => ?_)
        cases ran.symm.trans ended
      | ok value =>
        have given := List.forall_mem_append.mpr ⟨values value rfl, known⟩
        rcases restClear value quiet store given with later | builds
        · refine .inl (clear.andThen fun result after ended => ?_)
          cases ran.symm.trans ended
          exact later
        · exact .inr (builds.lift fun within => ⟨_, .later first.code.unlimited ran within⟩)
    · exact .inr (builds.lift fun within =>
        ⟨_, .first first.code.unlimited (fun value => (rest value).code.unlimited) within⟩)
  | hand _ ih =>
    exact ih quiet legible (List.forall_mem_cons.mpr ⟨legible_scope _, known⟩)
  | expand _ ih =>
    exact (ih (fun _ => id) legible known).imp_right fun builds =>
      builds.lift fun within => ⟨_, .expanding within⟩
  | roam allowed _ drawn => exact reads.evaluate (.inr allowed) legible (drawn.legible known)
  | @recover allowed _ _ _ _ _ start handler tries goesOn triesClear goesOnClear =>
    rcases triesClear quiet legible known with clear | builds
    · rcases ran : (start (Engine.ofDepth host depth).toCalls).outcome state with ⟨result, middle⟩
      have store := clear.store
      rw [ran] at store
      cases result with
      | ok value =>
        refine .inl (clear.recover fun fault after ended => ?_)
        cases ran.symm.trans ended
      | error fault =>
        rcases goesOnClear fault quiet store known with later | builds
        · refine .inl (clear.recover fun fault after ended => ?_)
          cases ran.symm.trans ended
          exact later
        · exact .inr (builds.lift fun within => ⟨_, .handled allowed tries.code.unlimited ran within⟩)
    · exact .inr (builds.lift fun within => ⟨_, .tried allowed tries.code.unlimited
        (fun fault => (goesOn fault).code.unlimited) within⟩)

/-! ### Whole runs -/

theorem Eval.contain_ok (callee : String) {act : Eval Value} {state : State} {value : Value}
    (answers : (act.outcome state).1 = .ok value) :
    ((Eval.contain callee act).outcome state).1 = .ok value := by
  rw [Eval.outcome_contain]
  split
  · next ran =>
    rw [ran] at answers
    cases answers
  · exact answers

theorem GivesLiteral.clear {run : Calls → Eval Value} {arguments : List Value}
    (gives : GivesLiteral run arguments) (calls : Calls) {state : State}
    (legible : state.scopes.Legible) :
    Clear ([·]) (run calls) state ∨
      ∃ literal, literal.Misspelt ∧ ((run calls).outcome state).1 = .ok literal := by
  obtain ⟨raw, known, _, _, rfl⟩ := gives
  by_cases misspelt : (Value.code (.number raw known)).Misspelt
  · exact .inr ⟨_, misspelt, rfl⟩
  · exact .inl (.of_ok rfl legible (List.forall_mem_singleton.mpr (legible_literal misspelt)))

variable (faithful : host.Faithful leeway Misspelt fun fault => fault.isRead = false)
include faithful

namespace Engine.Reads

variable {depth : Nat} (reads : Engine.Reads host leeway depth) {place : Option ScopeId}
  {state : State} (legible : state.scopes.Legible)
include reads legible

theorem evaluate_succ {scope : ScopeId} {expr : Expr} (near : place = some scope ∨ leeway.roams)
    (spelled : (Value.code expr).Legible) :
    Clear ([·]) ((Engine.ofDepth host (depth + 1)).evaluate scope expr) state ∨
      Builds host leeway place (depth + 1) (fun calls => calls.evaluate scope expr) state := by
  have number : ∀ raw known, expr = .number raw known → Expr.literalNumber? raw known = none → False := by
    rintro raw known rfl none
    have read := Option.isSome_iff_ne_none.mp ((legible_literal_iff known).mp spelled)
    cases known with
    | none => exact read none
    | some x => cases none
  have step : Handles host leeway Misspelt (fun fault => fault.isRead = false)
      (fun fault => fault.isRead = false) (some scope) [.code expr] ([·]) fun calls =>
        Engine.evaluateStep ⟨calls, host⟩ scope expr :=
    .evaluateStep rare_misspelt faithful (fun _ => id) (fun _ => id)
      (fun raw known same none => (number raw known same none).elim) (.of_mem List.mem_cons_self)
  rw [Engine.evaluate_ofDepth]
  refine (step.clear (fun _ => id) reads legible (List.forall_mem_singleton.mpr spelled)).imp_right
    fun builds => builds.lift fun within => ?_
  rcases near with rfl | roams
  · exact ⟨_, .evaluating within⟩
  · exact ⟨_, .roaming roams within⟩

theorem invoke_succ {operator : Value} {arguments : List Value}
    (spelled : ∀ value ∈ operator :: arguments, value.Legible) :
    Clear ([·]) ((Engine.ofDepth host (depth + 1)).invoke operator arguments) state ∨
      Builds host leeway place (depth + 1) (fun calls => calls.invoke operator arguments) state := by
  have among : ∀ value ∈ operator :: arguments, Drawn Misspelt (operator :: arguments) value :=
    fun _ => .of_mem
  cases invokable : operator.isInvokable with
  | false =>
    have step : Handles host leeway Misspelt (fun fault => fault.isRead = false)
        (fun fault => fault.isRead = false) none (operator :: arguments) ([·]) fun calls =>
          Engine.apply ⟨calls, host⟩ operator arguments :=
      .applyOther rare_misspelt invokable (fun _ => id) arguments
    rw [Engine.invoke_other host depth invokable]
    exact (step.clear (fun _ => id) reads legible spelled).imp_right fun builds =>
      builds.lift fun within => ⟨_, .refusing invokable within⟩
  | true =>
    have ran := Engine.invoke_invokable host depth invokable arguments
    obtain step | ⟨makes, gives⟩ := Handles.apply rare_misspelt faithful (fun _ => id) among
    · rw [ran]
      refine (step.clear (fun _ => id) reads legible spelled).imp (·.contain operator.callee) ?_
      exact fun builds => builds.lift fun within => ⟨_, .invoking invokable within⟩
    · obtain clear | ⟨literal, misspelt, answers⟩ :=
          gives.clear (Engine.ofDepth host depth).toCalls legible
      · rw [ran]
        exact .inl (clear.contain operator.callee)
      · have answered := Eval.contain_ok operator.callee answers
        rw [← ran] at answered
        exact .inr ⟨depth + 1, state, [], operator, arguments, literal, makes, misspelt, answered, .here⟩

end Engine.Reads

theorem Engine.reads_ofDepth (depth : Nat) : Engine.Reads host leeway depth := by
  induction depth with
  | zero =>
    have exhausted {state : State} (legible : state.scopes.Legible) :
        Clear ([·]) (Eval.crash .recursion) state :=
      .of_own (Eval.own_crash rfl) legible nofun
    exact ⟨fun _ legible _ => .inl (exhausted legible), fun legible _ => .inl (exhausted legible)⟩
  | succ depth ih =>
    exact ⟨fun near legible spelled => ih.evaluate_succ faithful legible near spelled,
      fun legible spelled => ih.invoke_succ faithful legible spelled⟩

end

/-! ### Sessions -/

namespace Session

structure Legible (root : ScopeId) (usual : String) (name : Option String) (engine : Engine)
    (source : String) (state : State) : Prop where
  store : ((execute reader root usual source name engine).outcome state).2.scopes.Legible
  value : ∀ value, ((execute reader root usual source name engine).outcome state).1 = .ok value →
    value.Legible
  fails : ∀ failure,
    ((execute reader root usual source name engine).outcome state).1 = .error (.failure (.read failure)) ↔
      reader source (submissionName usual name) = .error failure

variable {host : Host} {leeway : Leeway} {depth : Nat} (reads : Engine.Reads host leeway depth)
  (root : ScopeId)
  (usual : String) (name : Option String)
include reads

theorem legible_execute (source : String) {state : State} (legible : state.scopes.Legible) :
    Legible root usual name (Engine.ofDepth host depth) source state ∨
      ∃ expr, reader source (submissionName usual name) = .ok expr ∧
        Builds host leeway (some root) depth (fun calls => calls.evaluate root expr) state := by
  cases parsed : reader source (submissionName usual name) with
  | error failure =>
    have ran : (execute reader root usual source name (Engine.ofDepth host depth)).outcome state =
        (.error (.failure (.read failure)), state) := by
      rw [outcome_execute rfl, parsed]
    refine .inl ⟨?_, ?_, fun other => ?_⟩
    · rwa [ran]
    · rw [ran]
      exact nofun
    · rw [ran, parsed]
      constructor
      · rintro ⟨⟩
        rfl
      · rintro ⟨⟩
        rfl
  | ok expr =>
    have ran : (execute reader root usual source name (Engine.ofDepth host depth)).outcome state =
        (guardDepth (submissionName usual name)
          ((Engine.ofDepth host depth).evaluate root expr)).outcome state := by
      rw [outcome_execute rfl, parsed]
    rw [outcome_guardDepth] at ran
    refine (reads.evaluate (.inl rfl) legible (Expr.legible_of_parse parsed)).imp ?_ fun builds =>
      ⟨expr, rfl, builds⟩
    rintro ⟨store, values, quiet⟩
    have value : ∀ value, (((Engine.ofDepth host depth).evaluate root expr).outcome state).1 = .ok value →
        value.Legible := fun value ended => values value ended value List.mem_cons_self
    split at ran
    · next after exhausted =>
      rw [exhausted] at store
      refine ⟨?_, ?_, fun failure => ?_⟩
      · rwa [ran]
      · rw [ran]
        exact nofun
      · rw [ran, parsed]
        exact ⟨nofun, nofun⟩
    · refine ⟨?_, ?_, fun failure => ?_⟩
      · rwa [ran]
      · rwa [ran]
      · rw [ran, parsed]
        refine ⟨fun failed => ?_, nofun⟩
        cases quiet _ failed

theorem legible_submissions (sources : List String) {state : State} (legible : state.scopes.Legible) :
    let execute := fun source => execute reader root usual source name (Engine.ofDepth host depth)
    (∀ front source back, sources = front ++ source :: back →
      Legible root usual name (Engine.ofDepth host depth) source (stateAfter execute front state)) ∨
    ∃ front source back expr, sources = front ++ source :: back ∧
      reader source (submissionName usual name) = .ok expr ∧
      Builds host leeway (some root) depth (fun calls => calls.evaluate root expr)
        (stateAfter execute front state) := by
  intro execute
  induction sources generalizing state with
  | nil => exact .inl fun front source back split => by simp at split
  | cons first others ih =>
    rcases legible_execute reads root usual name first legible with here | ⟨expr, parsed, builds⟩
    · rcases ih here.store with each | ⟨front, source, back, expr, rfl, parsed, builds⟩
      · refine .inl fun front source back split => ?_
        cases front with
        | nil =>
          cases split
          exact here
        | cons _ front =>
          cases split
          exact each front source back rfl
      · exact .inr ⟨first :: front, source, back, expr, rfl, parsed, builds⟩
    · exact .inr ⟨[], first, others, expr, rfl, parsed, builds⟩

end Session

/-- Failures to read come from the reader only. The lexer's grammar of numbers is within the one that
evaluation reads numbers by, so parsed code is legible. Evaluation and calls from legible scopes do not
fail to read, and what they bind or answer is legible in turn; so the submissions of a session that
starts legible fail to read exactly where their own source cannot be read. All of this holds up to the
first call of the class of number literals that makes one of a text that is no number: that class is
one of the host's functions, and the only one here that builds such literals. A run that settles while
the class is barred comes to no such call. -/
theorem only_reading_fails_to_read {host : Host} {leeway : Leeway}
    (faithful : host.Faithful leeway Misspelt fun fault => fault.isRead = false) (depth : Nat) :
    (∀ raw : String, Token.IsNumber raw.toList → (Floating.ofText? raw).isSome = true) ∧
    (∀ (source : String) (name : Option String) (limit : Nat) (expr : Expr),
      Expr.parse source name limit = .ok expr → (Value.code expr).Legible) ∧
    Engine.Reads host leeway depth ∧
    (∀ bindings : List Binding, (∀ binding ∈ bindings, binding.value.Legible) →
      (Session.initial bindings).scopes.Legible) ∧
    (∀ (root : ScopeId) (usual : String) (name : Option String) (sources : List String)
        (state : State), state.scopes.Legible →
      let engine := Engine.ofDepth host depth
      let stateAfter := fun front => Session.stateAfter
        (fun source => Session.execute Session.reader root usual source name engine) front state
      (∀ front source back, sources = front ++ source :: back →
        Session.Legible root usual name engine source (stateAfter front)) ∨
      ∃ front source back expr, sources = front ++ source :: back ∧
        Session.reader source (Session.submissionName usual name) = .ok expr ∧
        Builds host leeway (some root) depth (fun calls => calls.evaluate root expr) (stateAfter front)) ∧
    (¬leeway.recovers → ∀ (scope : ScopeId) (expr : Expr) (state : State),
      Settled (((Calls.barring makesNumbers host depth).evaluate scope expr).outcome state).1 →
      ¬Builds host leeway (some scope) depth (fun calls => calls.evaluate scope expr) state) := by
  have reads := Engine.reads_ofDepth faithful depth
  refine ⟨fun _ number => Floating.isSome_ofText? number, ?_, reads, ?_, ?_, ?_⟩
  · exact fun _ _ _ _ parsed => Expr.legible_of_parse parsed
  · exact fun _ each => Session.holds_initial each
  · intro root usual name sources state legible
    exact Session.legible_submissions reads root usual name sources legible
  · exact fun passes _ _ _ settled => not_builds_of_settled passes faithful.abides settled

theorem only_reading_fails_to_read_digits :
    let engine := Engine.ofDepth Host.catalogue 3
    let execute := fun source => Session.execute Session.reader 0 "usual" source none engine
    let state := Session.initial Binding.core
    let expr : Expr := .list [.symbol "eval", .quote (.numeral "١")]
    Session.reader "(eval '١)" "usual" = .ok expr ∧ (Value.code expr).Legible ∧
      (execute "(eval '١)").outcome state = (.ok (.float (Floating.ofInt 1)), state) ∧
      Session.Legible 0 "usual" none engine "(eval '١)" state := by
  intro engine execute state expr
  have lexes : Token.Lexes "(eval '١)".toList
      [⟨.openList, "("⟩, ⟨.symbol, "eval"⟩, ⟨.blank, " "⟩, ⟨.quote, "'"⟩, ⟨.number, "١"⟩,
        ⟨.closeList, ")"⟩] [] := by
    have opens : Token.first? '(' "eval '١)".toList =
      some (.openList, ['('], "eval '١)".toList) := by decide +kernel
    have name : Token.first? 'e' "val '١)".toList =
      some (.symbol, ['e', 'v', 'a', 'l'], " '١)".toList) := by decide +kernel
    have blank : Token.first? ' ' "'١)".toList = some (.blank, [' '], "'١)".toList) := by
      decide +kernel
    have quotes : Token.first? '\x27' "١)".toList = some (.quote, ['\x27'], "١)".toList) := by
      decide +kernel
    have digit : Token.first? '١' ")".toList = some (.number, ['١'], ")".toList) := by
      decide +kernel
    have closes : Token.first? ')' "".toList = some (.closeList, [')'], []) := by decide +kernel
    exact .token opens (.token name (.token blank (.token quotes (.token digit (.one closes)))))
  have reads : Session.reader "(eval '١)" "usual" = .ok expr := by
    rw [Session.reader, Expr.parse_of_lexes lexes]
    rfl
  have faithful : Host.catalogue.Faithful .orderly Misspelt fun fault => fault.isRead = false :=
    Native.faithful_catalogue rare_misspelt fun _ => id
  obtain ⟨_, parsed, _, starts, submits, apart⟩ := only_reading_fails_to_read faithful 3
  have legible : state.scopes.Legible :=
    starts Binding.core fun binding among =>
      Binding.legible_standard binding (List.mem_append_left _ among)
  refine ⟨reads, parsed _ _ _ _ reads, ?_, ?_⟩
  · have label : Session.submissionName "usual" none = "usual" := rfl
    simp only [execute, Session.outcome_execute label, reads]
    rfl
  · rcases submits 0 "usual" none ["(eval '١)"] state legible with each | ⟨front, _, _, _, split, found⟩
    · exact each [] _ [] rfl
    · cases front with
      | nil =>
        cases split
        obtain ⟨same, builds⟩ := found
        cases reads.symm.trans same
        exact absurd builds (apart id 0 expr state trivial)
      | cons _ front => simp at split

/-- The class of number literals, when it is called, defers a failure to read. -/
example :
    let state := Session.initial Binding.core
    let built : Expr := .list [.list [.symbol "type", .quote (.numeral "1")], .string "\"a\""]
    ((Engine.ofDepth Host.catalogue 5).evaluate 0 built).outcome state =
        (.ok (.code (.numeral "a")), state) ∧
      ((Engine.ofDepth Host.catalogue 5).evaluate 0 (.list [.symbol "eval", built])).outcome state =
        (.error (.failure (.read ⟨.invalidNumber "a", none⟩)), state) :=
  ⟨rfl, rfl⟩

end HostLisp
