import HostLisp.Proofs.Calling
import HostLisp.Proofs.Seclusion
import HostLisp.Session

/-!
Code changes no scopes but its own, those it makes, and roots. So the scope of a block or of a
closure call is frozen when the block or the call is over: whatever runs later runs elsewhere, also if
it calls closures made in that scope. Only a program that makes a function of a special form, and calls
it with a scope, acts in that scope from elsewhere, and only if it has got hold of the scope as a value.
-/

namespace HostLisp

/-- What code that runs in a place leaves of the scopes: they stay where they are, and those with a
parent keep their contents unless they are the place or are handed over. -/
structure Framed (handed : ScopeId → Prop) (place : Option ScopeId) (before after : Store) : Prop where
  grows : before.size ≤ after.size
  around : ∀ id < before.size, (after.scope id).enclosing = (before.scope id).enclosing
  kept : ∀ id < before.size, place ≠ some id → ¬handed id → (before.scope id).enclosing ≠ [] →
    after.scope id = before.scope id

namespace Framed

variable {handed more : ScopeId → Prop} {place : Option ScopeId} {before middle after : Store}

theorem refl : Framed handed place before before :=
  ⟨Nat.le_refl _, fun _ _ => rfl, fun _ _ _ _ _ => rfl⟩

theorem trans (first : Framed handed place before middle) (second : Framed handed place middle after) :
    Framed handed place before after := by
  refine ⟨Nat.le_trans first.grows second.grows, ?_, ?_⟩
  · intro id old
    rw [second.around id (Nat.lt_of_lt_of_le old first.grows), first.around id old]
  · intro id old elsewhere spared inner
    have still := Nat.lt_of_lt_of_le old first.grows
    rw [second.kept id still elsewhere spared (first.around id old ▸ inner)]
    exact first.kept id old elsewhere spared inner

theorem weaken (framed : Framed handed place before after) (weaker : ∀ id, handed id → more id) :
    Framed more place before after :=
  ⟨framed.grows, framed.around, fun id old elsewhere spared =>
    framed.kept id old elsewhere fun within => spared (weaker id within)⟩

theorem anywhere {other : Option ScopeId} (framed : Framed handed place before after)
    (within : ∀ id, place = some id → handed id) : Framed handed other before after :=
  ⟨framed.grows, framed.around, fun id old _ spared =>
    framed.kept id old (fun here => spared (within id here)) spared⟩

theorem bind (scope : ScopeId) (name : String) (value : Value)
    (suits : place = some scope ∨ (before.scope scope).enclosing = []) :
    Framed handed place before (before.bind scope name value) := by
  refine ⟨Nat.le_of_eq (Store.size_bind ..).symm, ?_, ?_⟩
  · intro id _
    rw [Store.scope_bind]
    split
    · rfl
    · rfl
  · intro id _ elsewhere _ inner
    have other : scope ≠ id := by
      rintro rfl
      rcases suits with here | root
      · exact elsewhere here
      · exact inner root
    rw [Store.scope_bind, if_neg fun both => other both.1]

theorem block (around : Option ScopeId)
    (inside : Framed handed (some before.size) (before.child around).1 after) :
    Framed handed place before after := by
  have grows := inside.grows
  rw [Store.size_child] at grows
  have new : ∀ id < before.size, (before.child around).1.scope id = before.scope id := by
    intro id old
    rw [Store.scope_child, if_neg (Nat.ne_of_lt old)]
  refine ⟨by omega, ?_, ?_⟩
  · intro id old
    rw [inside.around id (by rw [Store.size_child]; omega), new id old]
  · intro id old _ spared inner
    have apart : some before.size ≠ some id := by
      rintro ⟨⟩
      exact Nat.lt_irrefl _ old
    rw [inside.kept id (by rw [Store.size_child]; omega) apart spared (by rwa [new id old]), new id old]

theorem andThen {α β : Type} {act : Eval α} {next : α → Eval β} {state : State}
    (first : Framed handed place state.scopes (act.outcome state).2.scopes)
    (rest : ∀ value after, act.outcome state = (.ok value, after) →
      Framed handed place after.scopes ((next value).outcome after).2.scopes) :
    Framed handed place state.scopes ((act >>= next).outcome state).2.scopes := by
  rcases ran : act.outcome state with ⟨result, after⟩
  rw [ran] at first
  cases result with
  | error fault => rwa [Eval.outcome_bind_error ran]
  | ok value =>
    rw [Eval.outcome_bind_ok ran]
    exact first.trans (rest value after ran)

theorem recover {α : Type} {act : Eval α} {handler : Fault → Eval α} {state : State}
    (tries : Framed handed place state.scopes (act.outcome state).2.scopes)
    (goesOn : ∀ fault after, act.outcome state = (.error fault, after) →
      Framed handed place after.scopes ((handler fault).outcome after).2.scopes) :
    Framed handed place state.scopes ((tryCatch act handler).outcome state).2.scopes := by
  rw [Eval.outcome_tryCatch]
  rcases ran : act.outcome state with ⟨result, after⟩
  rw [ran] at tries
  cases result with
  | error fault => exact tries.trans (goesOn fault after ran)
  | ok value => exact tries

end Framed

/-- A run comes to call a form as a function with a scope. Evaluation never does so with the forms
themselves: only an operator that a program makes of a function is invoked with a scope as a value. -/
def Hands (host : Host) (leeway : Leeway) {α : Type} (place : Option ScopeId) (depth : Nat)
    (run : Calls → Eval α) (state : State) (id : ScopeId) : Prop :=
  ∃ operator arguments inner reached trail, operator.isInvokable = true ∧
    operator.handed? arguments = some id ∧
    Within host leeway inner (fun calls => calls.invoke operator arguments) reached place depth run
      state trail

theorem Hands.absurd_of_settled {host : Host} {leeway : Leeway} (passes : ¬leeway.recovers)
    (abides : host.Abides leeway) {α : Type} {place : Option ScopeId} {depth : Nat}
    {run : Calls → Eval α} {state : State} {id : ScopeId}
    (settled : Settled ((run (Calls.barring Value.wrapsForm host depth)).outcome state).1) :
    ¬Hands host leeway place depth run state id := by
  rintro ⟨operator, arguments, inner, reached, trail, -, handed, within⟩
  have wraps : operator.wrapsForm = true := Value.wrapsForm_of_handed? handed
  exact within.unsettled passes abides wraps settled

theorem Hands.lift {host : Host} {leeway : Leeway} {α β : Type} {place outerPlace : Option ScopeId}
    {depth outer : Nat} {run : Calls → Eval α} {whole : Calls → Eval β} {state start : State}
    {id : ScopeId} (hands : Hands host leeway place depth run state id)
    (covers : ∀ {inner : Nat} {piece : Calls → Eval Value} {reached : State}
      {trail : List (Option String)},
        Within host leeway inner piece reached place depth run state trail →
          ∃ trail, Within host leeway inner piece reached outerPlace outer whole start trail) :
    Hands host leeway outerPlace outer whole start id := by
  obtain ⟨operator, arguments, inner, reached, trail, invokable, handed, within⟩ := hands
  obtain ⟨trail, within⟩ := covers within
  exact ⟨operator, arguments, inner, reached, trail, invokable, handed, within⟩

section

variable {host : Host} {leeway : Leeway}

structure Engine.Frames (host : Host) (leeway : Leeway) (depth : Nat) : Prop where
  evaluate : ∀ scope expr state,
    Framed (Hands host leeway (some scope) depth (fun calls => calls.evaluate scope expr) state)
      (some scope) state.scopes
      (((Engine.ofDepth host depth).evaluate scope expr).outcome state).2.scopes
  invoke : ∀ place operator arguments state,
    Framed (Hands host leeway place depth (fun calls => calls.invoke operator arguments) state)
      none state.scopes
      (((Engine.ofDepth host depth).invoke operator arguments).outcome state).2.scopes

/-- One step: code frames what it does if the calls it makes do. -/
theorem Code.framed (stays : ¬leeway.roams) {may : Fault → Prop} {α : Type} {place : Option ScopeId}
    {run : Calls → Eval α} (code : Code host leeway may place run) {depth : Nat}
    (frames : Engine.Frames host leeway depth) (state : State) :
    Framed (Hands host leeway place depth run state) place state.scopes
      ((run (Engine.ofDepth host depth).toCalls).outcome state).2.scopes := by
  induction code generalizing state with
  | own acts =>
    rw [acts.scopes]
    exact .refl
  | write writes =>
    rw [writes.scopes _ state]
    exact .refl
  | bindHere scope name value => exact .bind scope name value (.inl rfl)
  | bindRoot scope name value => exact .bind _ name value (.inr (state.scopes.enclosing_root scope))
  | evaluate scope expr => exact frames.evaluate scope expr state
  | invoke operator arguments => exact (frames.invoke _ operator arguments state).anywhere nofun
  | block around _ ih =>
    rw [Eval.outcome_bind_ok (Eval.outcome_child around state)]
    have inside := ih state.scopes.size ((Eval.child around).outcome state).2
    refine .block around (inside.weaken fun id hands => hands.lift fun within => ⟨_, .block within⟩)
  | andThen before rest first continued =>
    refine .andThen ((first state).weaken fun id hands => hands.lift fun within => ?_)
      fun value after ran => (continued value after).weaken fun id hands => hands.lift fun within => ?_
    · exact ⟨_, .first before.unlimited (fun value => (rest value).unlimited) within⟩
    · exact ⟨_, .later before.unlimited ran within⟩
  | expand _ ih =>
    exact (ih state).weaken fun id hands => hands.lift fun within => ⟨_, .expanding within⟩
  | roam allowed => exact absurd allowed stays
  | recover allowed before rest tries goesOn =>
    refine .recover ((tries state).weaken fun id hands => hands.lift fun within => ?_)
      fun fault after ran => (goesOn fault after).weaken fun id hands => hands.lift fun within => ?_
    · exact ⟨_, .tried allowed before.unlimited (fun fault => (rest fault).unlimited) within⟩
    · exact ⟨_, .handled allowed before.unlimited ran within⟩

end

section

variable {host : Host} {leeway : Leeway} (abides : host.Abides leeway) (stays : ¬leeway.roams)
include abides stays

theorem Engine.frames_ofDepth (depth : Nat) : Engine.Frames host leeway depth := by
  induction depth with
  | zero => exact ⟨fun _ _ _ => .refl, fun _ _ _ _ => .refl⟩
  | succ depth ih =>
    constructor
    · intro scope expr state
      rw [Engine.evaluate_ofDepth]
      have step : Code host leeway (fun _ => True) (some scope) fun calls =>
          Engine.evaluateStep ⟨calls, host⟩ scope expr := .evaluateStep abides (fun _ => trivial) expr
      exact (step.framed stays ih state).weaken fun id hands =>
        hands.lift fun within => ⟨_, .evaluating within⟩
    · intro place operator arguments state
      cases invokable : operator.isInvokable with
      | true =>
        rw [Engine.invoke_invokable host depth invokable, Eval.state_contain]
        refine (((Code.apply abides operator arguments).framed stays ih state).weaken
          fun id hands => hands.lift fun within => ⟨_, .invoking invokable within⟩).anywhere ?_
        intro id handed
        exact ⟨operator, arguments, depth + 1, state, [], invokable, handed, .here⟩
      | false =>
        rw [Engine.invoke_other host depth invokable]
        have step : Code host leeway (fun _ => True) none fun calls =>
            Engine.apply ⟨calls, host⟩ operator arguments :=
              .applyOther invokable (fun _ => trivial) arguments
        exact (step.framed stays ih state).weaken fun id hands =>
          hands.lift fun within => ⟨_, .refusing invokable within⟩

theorem Code.framed_ofDepth {may : Fault → Prop} {α : Type} {place : Option ScopeId}
    {run : Calls → Eval α} (code : Code host leeway may place run) (depth : Nat) (state : State) :
    Framed (Hands host leeway place depth run state) place state.scopes
      ((run (Engine.ofDepth host depth).toCalls).outcome state).2.scopes :=
  code.framed stays (Engine.frames_ofDepth abides stays depth) state

end

/-- The runs that make a scope inside a given one: blocks, and calls of closures with as many
arguments as they have parameters. -/
inductive Opens (host : Host) : ScopeId → (Calls → Eval Value) → Prop where
  | block (scope : ScopeId) (body : List Expr) :
      Opens host scope fun calls => Engine.perform ⟨calls, host⟩ scope (.block body)
  | call {params : List String} {arguments : List Value} (fits : params.length = arguments.length)
      (body : List Expr) (captured : ScopeId) (stamp : Stamp) :
      Opens host captured fun calls =>
        Engine.apply ⟨calls, host⟩ (.closure params body (some captured) stamp) arguments

theorem Opens.inside {host : Host} (leeway : Leeway) {around : ScopeId} {piece : Calls → Eval Value}
    (opens : Opens host around piece) :
    ∃ body : ScopeId → Calls → Eval Value,
      (∀ inner, Code host leeway (fun _ => True) (some inner) (body inner)) ∧
      piece = fun calls => Eval.child (some around) >>= fun inner => body inner calls := by
  cases opens with
  | block scope body => exact ⟨_, fun inner => .runBody body, rfl⟩
  | @call params arguments fits body captured stamp =>
    refine ⟨fun inner calls => do
      Engine.bindParams inner params arguments
      Engine.runBody ⟨calls, host⟩ inner body, ?_, ?_⟩
    · exact fun inner => .andThen (.bindParams params arguments) fun _ => .runBody body
    · funext calls
      exact if_pos fits

structure Holds (id : ScopeId) (contents : Scope) (store : Store) : Prop where
  old : id < store.size
  same : store.scope id = contents

theorem Holds.framed {id : ScopeId} {contents : Scope} {handed : ScopeId → Prop}
    {place : Option ScopeId} {before after : Store} (holds : Holds id contents before)
    (inner : contents.enclosing ≠ []) (framed : Framed handed place before after)
    (elsewhere : place ≠ some id) (spared : ¬handed id) : Holds id contents after := by
  refine ⟨Nat.lt_of_lt_of_le holds.old framed.grows, ?_⟩
  rw [framed.kept id holds.old elsewhere spared (holds.same ▸ inner)]
  exact holds.same

section

variable {host : Host} {leeway : Leeway} (abides : host.Abides leeway) (stays : ¬leeway.roams)
include abides stays

theorem Opens.holds {around : ScopeId} {piece : Calls → Eval Value} (opens : Opens host around piece)
    (depth : Nat) {state : State} (old : around < state.scopes.size) :
    let after := ((piece (Engine.ofDepth host depth).toCalls).outcome state).2.scopes
    Holds state.scopes.size (after.scope state.scopes.size) after ∧
      (after.scope state.scopes.size).enclosing ≠ [] := by
  obtain ⟨body, codes, rfl⟩ := opens.inside leeway
  have framed := (codes state.scopes.size).framed_ofDepth abides stays depth
    ((Eval.child (some around)).outcome state).2
  rw [Eval.outcome_child] at framed
  have made : state.scopes.size < (state.scopes.child (some around)).1.size := by
    rw [Store.size_child]
    omega
  rw [Eval.outcome_bind_ok (Eval.outcome_child (some around) state)]
  refine ⟨⟨Nat.lt_of_lt_of_le made framed.grows, rfl⟩, ?_⟩
  rw [framed.around _ made]
  change ((state.scopes.child (some around)).1.scope state.scopes.size).enclosing ≠ []
  rw [Store.scope_child, if_pos rfl, Store.inside, if_pos old]
  exact List.cons_ne_nil _ _

theorem Within.size_le {γ : Type} {inner : Nat} {piece : Calls → Eval γ} {reached : State} {α : Type}
    {place : Option ScopeId} {depth : Nat} {run : Calls → Eval α} {state : State}
    {trail : List (Option String)}
    (within : Within host leeway inner piece reached place depth run state trail) :
    state.scopes.size ≤ reached.scopes.size := by
  induction within with
  | here => exact Nat.le_refl _
  | first _ _ _ ih | evaluating _ ih | invoking _ _ ih | refusing _ _ ih | expanding _ ih
  | roaming _ _ ih | tried _ _ _ _ ih => exact ih
  | @later _ _ _ depth _ _ state _ _ _ before ran _ ih =>
    have grows := (before.framed_ofDepth abides stays depth state).grows
    rw [ran] at grows
    exact Nat.le_trans grows ih
  | @block _ _ _ around _ state _ _ ih =>
    have grows : (state.scopes.child around).1.size = state.scopes.size + 1 := Store.size_child ..
    have later : (state.scopes.child around).1.size ≤ reached.scopes.size := ih
    omega
  | @handled _ _ _ depth _ _ state _ _ _ before ran _ ih =>
    have grows := (before.framed_ofDepth abides stays depth state).grows
    rw [ran] at grows
    exact Nat.le_trans grows ih

theorem Within.holds {around : ScopeId} {inner : Nat} {piece : Calls → Eval Value} {reached : State}
    (opens : Opens host around piece) (old : around < reached.scopes.size) {α : Type}
    {place : Option ScopeId} {depth : Nat} {run : Calls → Eval α} {state : State}
    {trail : List (Option String)}
    (within : Within host leeway inner piece reached place depth run state trail)
    (elsewhere : place ≠ some reached.scopes.size)
    (spared : ¬Hands host leeway place depth run state reached.scopes.size) :
    Holds reached.scopes.size
      (((piece (Engine.ofDepth host inner).toCalls).outcome reached).2.scopes.scope
        reached.scopes.size)
      ((run (Engine.ofDepth host depth).toCalls).outcome state).2.scopes := by
  obtain ⟨left, parent⟩ := opens.holds abides stays inner old
  induction within with
  | here => exact left
  | @first _ _ _ depth start next state _ before rest _ ih =>
    have held := ih elsewhere fun hands =>
      spared (hands.lift fun within => ⟨_, .first before rest within⟩)
    rcases ran : (start (Engine.ofDepth host depth).toCalls).outcome state with ⟨result, middle⟩
    rw [ran] at held
    cases result with
    | error fault => rwa [Eval.outcome_bind_error ran]
    | ok value =>
      rw [Eval.outcome_bind_ok ran]
      refine held.framed parent ((rest value).framed_ofDepth abides stays depth middle) elsewhere ?_
      exact fun hands => spared (hands.lift fun within => ⟨_, .later before ran within⟩)
  | later before ran _ ih =>
    rw [Eval.outcome_bind_ok ran]
    exact ih elsewhere fun hands => spared (hands.lift fun within => ⟨_, .later before ran within⟩)
  | @block _ _ _ around _ state _ inside ih =>
    rw [Eval.outcome_bind_ok (Eval.outcome_child around state)]
    have grows : (state.scopes.child around).1.size = state.scopes.size + 1 := Store.size_child ..
    have later : (state.scopes.child around).1.size ≤ reached.scopes.size :=
      inside.size_le abides stays
    refine ih (fun same => ?_) fun hands => spared (hands.lift fun within => ⟨_, .block within⟩)
    exact absurd (Option.some.inj same) (Nat.ne_of_lt (by omega))
  | evaluating _ ih =>
    simp only [Engine.evaluate_ofDepth]
    exact ih elsewhere fun hands => spared (hands.lift fun within => ⟨_, .evaluating within⟩)
  | roaming allowed => exact absurd allowed stays
  | @invoking _ depth operator arguments _ _ invokable _ ih =>
    simp only [Engine.invoke_invokable host _ invokable, Eval.state_contain]
    refine ih (fun handed => spared ?_)
      fun hands => spared (hands.lift fun within => ⟨_, .invoking invokable within⟩)
    exact ⟨operator, arguments, depth + 1, _, [], invokable, handed, .here⟩
  | refusing other _ ih =>
    simp only [Engine.invoke_other host _ other]
    exact ih nofun fun hands => spared (hands.lift fun within => ⟨_, .refusing other within⟩)
  | expanding _ ih =>
    exact ih elsewhere fun hands => spared (hands.lift fun within => ⟨_, .expanding within⟩)
  | @tried allowed _ _ depth run handler state _ tries goesOn _ ih =>
    have held := ih elsewhere fun hands =>
      spared (hands.lift fun within => ⟨_, .tried allowed tries goesOn within⟩)
    rw [Eval.outcome_tryCatch]
    rcases ran : (run (Engine.ofDepth host depth).toCalls).outcome state with ⟨result, middle⟩
    rw [ran] at held
    cases result with
    | ok value => exact held
    | error fault =>
      refine held.framed parent ((goesOn fault).framed_ofDepth abides stays depth middle) elsewhere ?_
      exact fun hands => spared (hands.lift fun within => ⟨_, .handled allowed tries ran within⟩)
  | handled allowed before ran _ ih =>
    rw [Eval.outcome_tryCatch, ran]
    exact ih elsewhere fun hands =>
      spared (hands.lift fun within => ⟨_, .handled allowed before ran within⟩)

theorem Session.framed_execute (read : Session.Reader) (root : ScopeId) (usual source : String)
    (name : Option String) (depth : Nat) (state : State) :
    Framed (fun id => ∃ expr, read source (Session.submissionName usual name) = .ok expr ∧
        Hands host leeway (some root) depth (fun calls => calls.evaluate root expr) state id)
      (some root) state.scopes
      ((Session.execute read root usual source name
        (Engine.ofDepth host depth)).outcome state).2.scopes := by
  refine .andThen ?_ fun expr after ran => ?_
  · rw [Eval.outcome_ofExcept]
    exact .refl
  · rw [Eval.outcome_ofExcept] at ran
    injection ran with reads same
    subst same
    have framed := (Engine.frames_ofDepth abides stays depth).evaluate root expr state
    have handed (id : ScopeId) (hands : Hands host leeway (some root) depth
        (fun calls => calls.evaluate root expr) state id) : ∃ expr,
        read source (Session.submissionName usual name) = .ok expr ∧
          Hands host leeway (some root) depth (fun calls => calls.evaluate root expr) state id :=
      ⟨expr, Except.mapError_eq_ok reads, hands⟩
    have weaker := framed.weaken handed
    rw [Session.outcome_guardDepth]
    split
    · next ran => rwa [ran] at weaker
    · exact weaker

end

/-- What a session does later, outside a scope: it evaluates expressions in other scopes, invokes any
values, and reads and evaluates submissions. In none of these steps a form is called as a function with
that scope. -/
inductive Later (host : Host) (leeway : Leeway) (outside : ScopeId) (before : State) : State → Prop where
  | now : Later host leeway outside before before
  | evaluated {state : State} (depth : Nat) {scope : ScopeId} (expr : Expr)
      (elsewhere : scope ≠ outside)
      (spared : ¬Hands host leeway (some scope) depth (fun calls => calls.evaluate scope expr) state
        outside)
      (earlier : Later host leeway outside before state) :
      Later host leeway outside before
        (((Engine.ofDepth host depth).evaluate scope expr).outcome state).2
  | invoked {state : State} (depth : Nat) (operator : Value) (arguments : List Value)
      (spared : ¬Hands host leeway none depth (fun calls => calls.invoke operator arguments) state
        outside)
      (earlier : Later host leeway outside before state) :
      Later host leeway outside before
        (((Engine.ofDepth host depth).invoke operator arguments).outcome state).2
  | submitted {state : State} (depth : Nat) (read : Session.Reader) {root : ScopeId}
      (usual source : String) (name : Option String) (elsewhere : root ≠ outside)
      (spared : ∀ expr, read source (Session.submissionName usual name) = .ok expr →
        ¬Hands host leeway (some root) depth (fun calls => calls.evaluate root expr) state outside)
      (earlier : Later host leeway outside before state) :
      Later host leeway outside before
        ((Session.execute read root usual source name (Engine.ofDepth host depth)).outcome state).2

section

variable {host : Host} {leeway : Leeway} (abides : host.Abides leeway) (stays : ¬leeway.roams)
include abides stays

theorem Later.holds {id : ScopeId} {contents : Scope} (inner : contents.enclosing ≠ [])
    {before after : State} (later : Later host leeway id before after)
    (held : Holds id contents before.scopes) : Holds id contents after.scopes := by
  induction later with
  | now => exact held
  | evaluated depth expr elsewhere spared _ ih =>
    exact ih.framed inner ((Engine.frames_ofDepth abides stays depth).evaluate _ expr _)
      (by simpa using elsewhere) spared
  | invoked depth operator arguments spared _ ih =>
    exact ih.framed inner
      ((Engine.frames_ofDepth abides stays depth).invoke none operator arguments _) nofun spared
  | submitted depth read usual source name elsewhere spared _ ih =>
    refine ih.framed inner (Session.framed_execute abides stays read _ usual source name depth _)
      (by simpa using elsewhere) ?_
    rintro ⟨expr, reads, hands⟩
    exact spared expr reads hands

/-- Evaluation leaves a scope that has a parent as it was, unless it evaluates in that scope or calls a
form as a function with it. A scope that a run makes for a block or for a closure call stays to the end
of the run and ever after as the block or the call left it, unless a form is called so with it. While no
value stands for a scope, nothing that runs elsewhere changes it or makes a value that stands for it. -/
theorem scopes_frozen :
    (∀ (depth : Nat) (state : State) (scope : ScopeId) (expr : Expr),
      ∀ other < state.scopes.size, other ≠ scope → (state.scopes.scope other).enclosing ≠ [] →
        ¬Hands host leeway (some scope) depth (fun calls => calls.evaluate scope expr) state other →
        (((Engine.ofDepth host depth).evaluate scope expr).outcome state).2.scopes.scope other =
          state.scopes.scope other) ∧
    (∀ {α : Type} (place : Option ScopeId) (depth : Nat) (run : Calls → Eval α) (state : State)
      (trail : List (Option String)) (around : ScopeId) (inner : Nat) (piece : Calls → Eval Value)
      (reached later : State),
      (∀ scope, place = some scope → scope < state.scopes.size) →
      Opens host around piece → around < reached.scopes.size →
      Within host leeway inner piece reached place depth run state trail →
      ¬Hands host leeway place depth run state reached.scopes.size →
      Later host leeway reached.scopes.size
        ((run (Engine.ofDepth host depth).toCalls).outcome state).2 later →
        later.scopes.scope reached.scopes.size =
          ((piece (Engine.ofDepth host inner).toCalls).outcome reached).2.scopes.scope
            reached.scopes.size) ∧
    ∀ (other : ScopeId) (contents : Scope), contents.enclosing ≠ [] →
      host.Faithful leeway (· = .scope other) (fun _ => True) →
        ∀ depth, (Engine.ofDepth host depth).toCalls.Secluding other contents := by
  refine ⟨?_, ?_, fun other contents inner faithful =>
    Engine.secluding_ofDepth stays inner faithful⟩
  · intro depth state scope expr other old elsewhere inner spared
    have framed := (Engine.frames_ofDepth abides stays depth).evaluate scope expr state
    exact framed.kept other old (by simpa using elsewhere.symm) spared inner
  · intro α place depth run state trail around inner piece reached later valid opens old within spared
      after
    have apart : place ≠ some reached.scopes.size := fun here =>
      Nat.lt_irrefl _ (Nat.lt_of_lt_of_le (valid _ here) (within.size_le abides stays))
    have left := within.holds abides stays opens old apart spared
    have parent := (opens.holds abides stays inner old).2
    exact (after.holds abides stays parent left).same

end

/-- The scope of a call is as the call left it, also when a closure made in it was called since and
bound the same name. -/
theorem scopes_frozen_called :
    let state : State := { scopes := (Store.empty.fresh.1.child (some 0)).1 }
    let closure : Value := .closure ["x"] [.symbol "x"] (some 0) ⟨0, 0⟩
    let called := ((Engine.standard.invoke closure [.nil]).outcome state).2
    let rebind : Expr := .list [.value (.form .label) ⟨0, 0⟩, .symbol "x", .list []]
    let maker : Value := .closure [] [rebind] (some 2) ⟨3, 0⟩
    let again := ((Engine.standard.invoke maker []).outcome called).2
    ((Engine.standard.evaluate 0 (.symbol "x")).outcome state).2.scopes.scope 1 =
        state.scopes.scope 1 ∧
      again.scopes.scope 2 =
        (((Engine.ofDepth Host.catalogue 999).apply closure [.nil]).outcome state).2.scopes.scope 2 ∧
      again.scopes.Secluded 2 (called.scopes.scope 2) := by
  intro state closure called rebind maker again
  have abides : Host.catalogue.Abides ⟨False, False⟩ := Native.abides_catalogue
  have parent : (state.scopes.scope 1).enclosing ≠ [] := List.cons_ne_nil 0 []
  have within : Within Host.catalogue ⟨False, False⟩ 999
      (fun calls => Engine.apply ⟨calls, Host.catalogue⟩ closure [.nil]) state none 1000
      (fun calls => calls.invoke closure [.nil]) state [some closure.callee] := .invoking rfl .here
  have looked : ¬Hands Host.catalogue ⟨False, False⟩ (some 0) 1000
      (fun calls => calls.evaluate 0 (.symbol "x")) state 1 := Hands.absurd_of_settled id abides rfl
  have first : ¬Hands Host.catalogue ⟨False, False⟩ none 1000
      (fun calls => calls.invoke closure [.nil]) state 2 := Hands.absurd_of_settled id abides trivial
  have second : ¬Hands Host.catalogue ⟨False, False⟩ none 1000
      (fun calls => calls.invoke maker []) called 2 := Hands.absurd_of_settled id abides trivial
  have frozen := (scopes_frozen abides id).2.1 none 1000 _ state _ 0 999 _ state again nofun
    (.call rfl _ 0 _) (by decide) within first (.invoked 1000 maker [] second .now)
  rw [Engine.mk_ofDepth] at frozen
  have rare := Value.rare_scope 2
  have leaf : Value.Drawn (· = .scope 2) [] .nil := rare.leaf rfl rfl
  have call : Value.Drawn (· = .scope 2) [] (.code rebind) := by
    refine rare.call ?_
    simp only [List.forall_mem_cons]
    exact ⟨rare.held (rare.leaf rfl rfl) _, rare.leaf rfl rfl, rare.leaf rfl rfl, nofun⟩
  have holds : called.scopes.Holds (Value.Conceals 2) :=
    (((Store.holds_empty.child none).child (some 0)).child (some 0)).bind 2 "x"
      (Value.conceals_of_drawn leaf nofun) none
  have body : (Value.code rebind).Conceals 2 := Value.conceals_of_drawn call nofun
  have operator : maker.Conceals 2 :=
    Value.conceals_closure [] (some 2) ⟨3, 0⟩ (List.forall_mem_singleton.mpr body)
  have faithful : Host.catalogue.Faithful ⟨False, False⟩ (· = .scope 2) fun _ => True :=
    Native.faithful_catalogue rare fun _ _ => trivial
  have secluding := (scopes_frozen abides id).2.2 2 (called.scopes.scope 2)
    (List.cons_ne_nil 0 []) faithful 1000
  exact ⟨(scopes_frozen abides id).1 1000 state 0 _ 1 (by decide) (by decide) parent looked, frozen,
    (secluding.invoke ⟨by decide, rfl, holds⟩ (List.forall_mem_singleton.mpr operator)).store⟩

end HostLisp
