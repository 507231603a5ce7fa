import HostLisp.Proofs.Shapes

/-!
How evaluation handles values, said once. Code acts on values that it was given, that it looked up,
or that came back from its calls; what it binds, evaluates, invokes and returns is made of these. The
scopes in which it runs, makes other scopes and makes closures are those it comes by in the same way.
-/

namespace HostLisp

open Value

/-- A scope that code comes by: the one where it runs, or one that a value holds on to that it was
given. -/
def Near (sort : Value → Prop) (place : Option ScopeId) (given : List Value) (scope : ScopeId) : Prop :=
  place = some scope ∨ ∃ value, Drawn sort given value ∧ value.captured? = some scope

/-- Computations of a host that for a sort of values hand on only what they find in the values they are
given or get back. -/
inductive Serves (host : Host) (leeway : Leeway) (sort : Value → Prop) (deep : Fault → Prop) :
    List Value → {α : Type} →
    (α → List Value) → (Calls → Eval α) → Prop where
  | own {given : List Value} {α : Type} {found : α → List Value} {act : Eval α}
      (acts : act.Own deep)
      (gives : act.Gives fun result => ∀ value ∈ found result, Drawn sort given value) :
      Serves host leeway sort deep given found fun _ => act
  | write {given : List Value} {run : Calls → Eval Value} {flaw? : Nat → Store → Option Flaw}
      (writes : Writes host run flaw?) : Serves host leeway sort deep given ([·]) run
  | call {given : List Value} {operator : Value} {arguments : List Value}
      (known : ∀ value ∈ operator :: arguments, Drawn sort given value) :
      Serves host leeway sort deep given ([·]) fun calls => calls.invoke operator arguments
  | evaluate (allowed : leeway.roams) {given : List Value} {scope : ScopeId} {expr : Expr}
      (near : Near sort none given scope) (known : Drawn sort given (.code expr)) :
      Serves host leeway sort deep given ([·]) fun calls => calls.evaluate scope expr
  | andThen {given : List Value} {α β : Type} {found : α → List Value} {further : β → List Value}
      {first : Calls → Eval α} {next : α → Calls → Eval β}
      (before : Serves host leeway sort deep given found first)
      (rest : ∀ result, Serves host leeway sort deep (found result ++ given) further (next result)) :
      Serves host leeway sort deep given further fun calls => first calls >>= fun result =>
        next result calls
  | recover (allowed : leeway.recovers) {given : List Value} {α : Type} {found : α → List Value}
      {run : Calls → Eval α} {handler : Fault → Calls → Eval α}
      (tries : Serves host leeway sort deep given found run)
      (goesOn : ∀ fault, Serves host leeway sort deep given found (handler fault)) :
      Serves host leeway sort deep given found fun calls =>
        tryCatch (run calls) fun fault => handler fault calls

/-- The functions of the host make no scopes, and what they return of a sort was in their arguments or
came back from their calls. -/
structure Host.Faithful (leeway : Leeway) (sort : Value → Prop) (deep : Fault → Prop) (host : Host) :
    Prop where
  run : ∀ native arguments, Serves host leeway sort deep arguments ([·]) fun calls =>
    host.run calls native arguments
  other : ∀ operator arguments, Serves host leeway sort deep (operator :: arguments) ([·]) fun calls =>
    host.other calls operator arguments

theorem Serves.outside {host : Host} {leeway : Leeway} {sort : Value → Prop} {deep : Fault → Prop}
    {given : List Value}
    {α : Type} {found : α → List Value} {run : Calls → Eval α}
    (serves : Serves host leeway sort deep given found run) : Outside host leeway run := by
  induction serves with
  | own acts _ => exact .own (acts.weaken fun _ _ => trivial)
  | write writes => exact .write writes
  | call _ => exact .call _ _
  | evaluate allowed _ _ => exact .evaluate allowed _ _
  | andThen _ _ first rest => exact .andThen first rest
  | recover allowed _ _ tries goesOn => exact .recover allowed tries goesOn

theorem Host.Faithful.abides {leeway : Leeway} {sort : Value → Prop} {deep : Fault → Prop} {host : Host}
    (faithful : host.Faithful leeway sort deep) : host.Abides leeway :=
  ⟨fun native arguments => (faithful.run native arguments).outside,
    fun operator arguments => (faithful.other operator arguments).outside⟩

theorem Serves.mapM {host : Host} {leeway : Leeway} {sort : Value → Prop} {deep : Fault → Prop}
    {given items : List Value} {operator : Value}
    (known : ∀ value ∈ operator :: items, Drawn sort given value) :
    Serves host leeway sort deep given id fun calls =>
      items.mapM fun item => calls.invoke operator [item] := by
  induction items generalizing given with
  | nil => exact .own (Eval.own_pure []) (Eval.gives_pure (List.forall_mem_nil _))
  | cons item items ih =>
    simp only [List.forall_mem_cons] at known
    obtain ⟨called, first, others⟩ := known
    simp only [List.mapM_cons]
    have calls : Serves host leeway sort deep given ([·]) fun calls => calls.invoke operator [item] :=
      .call (List.forall_mem_cons.mpr ⟨called, List.forall_mem_singleton.mpr first⟩)
    have later : ∀ {result : Value}, ∀ value ∈ operator :: items, Drawn sort ([result] ++ given) value :=
      List.forall_mem_cons.mpr ⟨called.still, fun value among => (others value among).still⟩
    refine .andThen calls fun result => .andThen (ih later) fun results => ?_
    refine .own (Eval.own_pure _) (Eval.gives_pure fun value among => .of_mem ?_)
    rcases List.mem_cons.mp among with rfl | among
    · simp
    · simp [among]

theorem Native.serves_run {host : Host} {leeway : Leeway} {sort : Value → Prop} (rare : Rare sort)
    {deep : Fault → Prop} (usual : ∀ fault, fault.isRead = false → deep fault) (native : Native)
    (arguments : List Value) :
    Serves host leeway sort deep arguments ([·]) fun calls => Native.run calls native arguments := by
  have alone : Serves host leeway sort deep arguments ([·]) fun _ => native.compute arguments := by
    refine .own (own_compute usual native arguments) fun state result ran => ?_
    exact List.forall_mem_singleton.mpr (gives_compute rare native arguments state result ran)
  have member : ∀ value ∈ arguments, Drawn sort arguments value := fun _ among => .of_mem among
  cases native with
  | applyTwice =>
    match arguments with
    | [f, x] =>
      refine .andThen (.call member) fun once => .call ?_
      simp only [List.forall_mem_cons] at member ⊢
      exact ⟨member.1.still, .of_mem List.mem_cons_self, List.forall_mem_nil _⟩
    | [] | [_] | _ :: _ :: _ :: _ => exact alone
  | map =>
    match arguments with
    | [] | [_] => exact alone
    | f :: x :: others =>
      cases x with
      | list items =>
        cases others with
        | nil =>
          simp only [List.forall_mem_cons] at member
          refine .andThen (.mapM (List.forall_mem_cons.mpr
            ⟨member.1, fun item among => member.2.1.piece among⟩)) fun results => ?_
          refine .own (Eval.own_pure _) (Eval.gives_pure (List.forall_mem_singleton.mpr ?_))
          exact rare.drawn rfl fun piece among => .of_mem (List.mem_append_left _ among)
        | cons _ _ => exact alone
      | _ => exact alone
  | call =>
    match arguments with
    | [] | [_] => exact alone
    | f :: x :: others =>
      cases x with
      | list items =>
        cases others with
        | nil =>
          simp only [List.forall_mem_cons] at member
          exact .call (List.forall_mem_cons.mpr
            ⟨member.1, fun item among => member.2.1.piece among⟩)
        | cons _ _ => exact alone
      | _ => exact alone
  | capture =>
    match arguments with
    | [] | [_] => exact alone
    | _ :: name :: others =>
      cases name with
      | text name =>
        match others with
        | [] => exact alone
        | exprs :: others =>
          cases exprs with
          | list exprs =>
            cases others with
            | nil => exact .write (.shown name exprs)
            | cons _ _ => exact alone
          | _ => exact alone
      | _ => exact alone
  | _ => exact alone

theorem Native.faithful_catalogue {leeway : Leeway} {sort : Value → Prop} (rare : Rare sort)
    {deep : Fault → Prop} (usual : ∀ fault, fault.isRead = false → deep fault) :
    Host.catalogue.Faithful leeway sort deep :=
  ⟨serves_run rare usual, fun _ _ => .own (Eval.own_crash (usual _ rfl)) (Eval.gives_crash _)⟩

def Value.makesNumbers : Value → Bool
  | .kind made => made = .numberExpr
  | .operative function _ _ => function.makesNumbers
  | .adapter function _ _ _ => function.makesNumbers
  | _ => false

/-- Computations that act in a place, if they have one, on the values they are given. What is found in
a result is given to what comes after it. -/
inductive Handles (host : Host) (leeway : Leeway) (sort : Value → Prop) (deep : Fault → Prop) :
    (Fault → Prop) → Option ScopeId → List Value → {α : Type} → (α → List Value) → (Calls → Eval α) →
      Prop where
  | own {may : Fault → Prop} {place : Option ScopeId} {given : List Value} {α : Type}
      {found : α → List Value} {act : Eval α} (acts : act.Own may)
      (gives : act.Gives fun result => ∀ value ∈ found result, Drawn sort given value) :
      Handles host leeway sort deep may place given found fun _ => act
  | write {may : Fault → Prop} {place : Option ScopeId} {given : List Value} {run : Calls → Eval Value}
      {flaw? : Nat → Store → Option Flaw} (writes : Writes host run flaw?)
      (gives : ∀ calls, (run calls).Gives (Drawn sort given)) :
      Handles host leeway sort deep may place given ([·]) run
  | lookup {may : Fault → Prop} {scope : ScopeId} {given : List Value} {name : String}
      (allowed : may (.failure (.unbound name))) :
      Handles host leeway sort deep may (some scope) given ([·]) fun _ => Eval.lookup scope name
  | close {may : Fault → Prop} {place : Option ScopeId} {given : List Value} {around : Option ScopeId}
      (near : ∀ scope, around = some scope → Near sort place given scope) (params : List String)
      {body : List Expr} (known : ∀ expr ∈ body, Drawn sort given (.code expr)) :
      Handles host leeway sort deep may place given ([·]) fun _ => Engine.closure params body around
  | bind {may : Fault → Prop} {scope : ScopeId} {given : List Value} (name : String) {value : Value}
      (target : Target) (known : Drawn sort given value) :
      Handles host leeway sort deep may (some scope) given (fun _ => []) fun _ =>
        Engine.bindAt scope name value target
  | evaluate {may : Fault → Prop} {scope : ScopeId} {given : List Value} {expr : Expr}
      (known : Drawn sort given (.code expr)) :
      Handles host leeway sort deep may (some scope) given ([·]) fun calls => calls.evaluate scope expr
  | invoke {may : Fault → Prop} {place : Option ScopeId} {given : List Value} {operator : Value}
      {arguments : List Value} (known : ∀ value ∈ operator :: arguments, Drawn sort given value) :
      Handles host leeway sort deep may place given ([·]) fun calls => calls.invoke operator arguments
  | block {may : Fault → Prop} {place : Option ScopeId} {given : List Value} {around : Option ScopeId}
      (near : ∀ scope, around = some scope → Near sort place given scope) {α : Type}
      {found : α → List Value} {run : ScopeId → Calls → Eval α}
      (inside : ∀ inner, Handles host leeway sort deep may (some inner) given found (run inner)) :
      Handles host leeway sort deep may place given found fun calls =>
        Eval.child around >>= fun inner => run inner calls
  | andThen {may : Fault → Prop} {place : Option ScopeId} {given : List Value} {α β : Type}
      {found : α → List Value} {further : β → List Value} {first : Calls → Eval α}
      {next : α → Calls → Eval β} (before : Handles host leeway sort deep may place given found first)
      (rest : ∀ result,
        Handles host leeway sort deep may place (found result ++ given) further (next result)) :
      Handles host leeway sort deep may place given further fun calls =>
        first calls >>= fun result => next result calls
  | hand {may : Fault → Prop} {scope : ScopeId} {given : List Value} {α : Type} {found : α → List Value}
      {run : Calls → Eval α}
      (inside : Handles host leeway sort deep may (some scope) (.scope scope :: given) found run) :
      Handles host leeway sort deep may (some scope) given found run
  | expand {may : Fault → Prop} {place : Option ScopeId} {given : List Value} {function : Value}
      {arguments : List Value}
      (inside : Handles host leeway sort deep deep place given ([·]) fun calls =>
        Engine.direct ⟨calls, host⟩ function arguments) :
      Handles host leeway sort deep may place given ([·]) fun calls =>
        Engine.direct ⟨calls, host⟩ function arguments
  | roam (allowed : leeway.roams) {may : Fault → Prop} {place : Option ScopeId} {given : List Value}
      {scope : ScopeId} {expr : Expr} (near : Near sort none given scope)
      (known : Drawn sort given (.code expr)) :
      Handles host leeway sort deep may place given ([·]) fun calls => calls.evaluate scope expr
  | recover (allowed : leeway.recovers) {may : Fault → Prop} {place : Option ScopeId}
      {given : List Value} {α : Type} {found : α → List Value} {run : Calls → Eval α}
      {handler : Fault → Calls → Eval α}
      (tries : Handles host leeway sort deep may place given found run)
      (goesOn : ∀ fault, Handles host leeway sort deep may place given found (handler fault)) :
      Handles host leeway sort deep may place given found fun calls =>
        tryCatch (run calls) fun fault => handler fault calls

theorem Near.weaken {sort : Value → Prop} {given more : List Value} {scope : ScopeId}
    (near : Near sort none given scope) (known : ∀ value ∈ given, Drawn sort more value) :
    Near sort none more scope := by
  obtain absent | ⟨value, drawn, captured⟩ := near
  · cases absent
  · exact .inr ⟨value, drawn.trans known, captured⟩

theorem Near.anywhere {sort : Value → Prop} {place other : Option ScopeId} {given : List Value}
    {scope : ScopeId} (near : Near sort place given scope) (free : place = none) :
    Near sort other given scope := by
  obtain here | held := near
  · cases free.symm.trans here
  · exact .inr held

namespace Handles

variable {host : Host} {leeway : Leeway} {sort : Value → Prop} {deep may : Fault → Prop}
  {place : Option ScopeId} {scope : ScopeId} {given : List Value}

theorem code {α : Type} {found : α → List Value} {run : Calls → Eval α}
    (handles : Handles host leeway sort deep may place given found run) :
    Code host leeway may place run := by
  induction handles with
  | own acts _ => exact .own acts
  | write writes _ => exact .write writes
  | lookup allowed => exact .own (Eval.own_lookup _ allowed)
  | close _ params _ => exact .own (Engine.own_closure params _ _)
  | bind name target _ =>
    cases target with
    | current => exact .bindHere _ name _
    | root => exact .bindRoot _ name _
  | evaluate _ => exact .evaluate _ _
  | invoke _ => exact .invoke _ _
  | block _ _ inside => exact .block _ inside
  | andThen _ _ first rest => exact .andThen first rest
  | hand _ inside => exact inside
  | expand _ inside => exact .expand inside.unlimited
  | roam allowed _ _ => exact .roam allowed _ _
  | recover allowed _ _ tries goesOn => exact .recover allowed tries goesOn

theorem anywhere {α : Type} {found : α → List Value} {run : Calls → Eval α}
    (handles : Handles host leeway sort deep may place given found run) (free : place = none)
    {other : Option ScopeId} : Handles host leeway sort deep may other given found run := by
  induction handles with
  | own acts gives => exact .own acts gives
  | write writes gives => exact .write writes gives
  | lookup | bind | evaluate | hand => cases free
  | close near params known =>
    exact .close (fun scope around => (near scope around).anywhere free) params known
  | invoke known => exact .invoke known
  | block near inside _ => exact .block (fun scope around => (near scope around).anywhere free) inside
  | andThen _ _ first rest => exact .andThen (first free) fun result => rest result free
  | expand _ inside => exact .expand (inside free)
  | roam allowed near known => exact .roam allowed near known
  | recover allowed _ _ tries goesOn =>
    exact .recover allowed (tries free) fun fault => goesOn fault free

theorem plain {act : Eval Value} (acts : act.Own may) (gives : act.Gives (Drawn sort given)) :
    Handles host leeway sort deep may place given ([·]) fun _ => act := by
  refine .own acts fun state result ran value among => ?_
  rw [List.mem_singleton.mp among]
  exact gives state result ran

theorem result {value : Value} (known : Drawn sort given value) :
    Handles host leeway sort deep may place given ([·]) fun _ => pure value :=
  plain (Eval.own_pure value) (Eval.gives_pure known)

theorem ends {act : Eval Value} (acts : act.Own may) (fails : act.Gives fun _ => False) :
    Handles host leeway sort deep may place given ([·]) fun _ => act :=
  plain acts fun state value ran => (fails state value ran).elim

section

variable (rare : Rare sort)
include rare

theorem written {run : Calls → Eval Value} {flaw? : Nat → Store → Option Flaw}
    (writes : Writes host run flaw?) : Handles host leeway sort deep may place given ([·]) run := by
  refine .write writes fun calls => ?_
  have leaf {flaw : Option Flaw} {value : Value} (common : value.isRare = false)
      (bare : value.pieces = []) : (Eval.unlessFlawed flaw (pure value)).Gives (Drawn sort given) :=
    Eval.gives_unlessFlawed _ (Eval.gives_pure (rare.leaf common bare))
  cases writes with
  | bindings scope => exact (Eval.gives_anything _).andThen fun _ _ => leaf rfl rfl
  | inspected scope exprs =>
    refine (Eval.gives_anything _).andThen fun _ _ => Eval.gives_unlessFlawed _ ?_
    exact (Eval.gives_anything _).andThen fun _ _ => Eval.gives_pure (rare.leaf rfl rfl)
  | refused value =>
    exact (Eval.gives_anything _).andThen fun _ _ => Eval.gives_unlessFlawed _ (Eval.gives_fail _)
  | misshapen error =>
    exact (Eval.gives_anything _).andThen fun _ _ => Eval.gives_unlessFlawed _ (Eval.gives_fail _)
  | shown name exprs =>
    refine (Eval.gives_anything _).andThen fun _ _ => Eval.gives_unlessFlawed _ (Eval.gives_pure ?_)
    refine rare.drawn rfl fun piece among => ?_
    rcases List.mem_cons.mp among with rfl | among
    · exact rare.leaf rfl rfl
    · obtain ⟨source, -, rfl⟩ := List.mem_map.mp among
      exact rare.leaf rfl rfl
  | signature function => exact (Eval.gives_anything _).andThen fun _ _ => leaf rfl rfl
  | text value => exact (Eval.gives_anything _).andThen fun _ _ => leaf rfl rfl

theorem ofServes {α : Type} {found : α → List Value} {run : Calls → Eval α}
    (serves : Serves host leeway sort deep given found run) {more : List Value}
    (known : ∀ value ∈ given, Drawn sort more value) :
    Handles host leeway sort deep deep place more found run := by
  induction serves generalizing more with
  | own acts gives =>
    refine .own acts fun state result ran value among => ?_
    exact (gives state result ran value among).trans known
  | write writes => exact written rare writes
  | call called => exact .invoke fun value among => (called value among).trans known
  | evaluate allowed near held => exact .roam allowed (near.weaken known) (held.trans known)
  | andThen _ _ first rest =>
    refine .andThen (first known) fun result => rest result fun value among => ?_
    rcases List.mem_append.mp among with new | old
    · exact .of_mem (List.mem_append_left _ new)
    · exact (known value old).still
  | recover allowed _ _ tries goesOn =>
    exact .recover allowed (tries known) fun fault => goesOn fault known

theorem runBody {body : List Expr} (known : ∀ expr ∈ body, Drawn sort given (.code expr)) :
    Handles host leeway sort deep may (some scope) given ([·]) fun calls =>
      Engine.runBody ⟨calls, host⟩ scope body := by
  have carried : ∀ (given : List Value) (value : Value), Drawn sort given value →
      (∀ expr ∈ body, Drawn sort given (.code expr)) →
      Handles host leeway sort deep may (some scope) given ([·]) fun calls =>
        body.foldlM (fun _ expr => calls.evaluate scope expr) value := by
    -- The value carried along is the result if nothing is left, and forgotten otherwise.
    clear known
    induction body with
    | nil => exact fun _ _ held _ => result held
    | cons expr body ih =>
      intro given value held known
      rw [List.forall_mem_cons] at known
      refine .andThen (.evaluate known.1) fun result => ?_
      exact ih _ result (.of_mem List.mem_cons_self) fun expr among => (known.2 expr among).still
  exact carried given .nil (rare.leaf rfl rfl) known

omit rare in
theorem evaluateAll {exprs : List Expr} (known : ∀ expr ∈ exprs, Drawn sort given (.code expr)) :
    Handles host leeway sort deep may (some scope) given id fun calls =>
      Engine.evaluateAll ⟨calls, host⟩ scope exprs := by
  unfold Engine.evaluateAll
  induction exprs generalizing given with
  | nil => exact .own (Eval.own_pure []) (Eval.gives_pure (List.forall_mem_nil _))
  | cons expr exprs ih =>
    rw [List.forall_mem_cons] at known
    simp only [List.mapM_cons]
    refine .andThen (.evaluate known.1) fun first => ?_
    refine .andThen (ih fun expr among => (known.2 expr among).still) fun others => ?_
    refine .own (Eval.own_pure _) (Eval.gives_pure fun value among => .of_mem ?_)
    rcases List.mem_cons.mp among with rfl | later
    · simp
    · simp [later]

theorem choose {clauses : List (Expr × Expr)}
    (known : ∀ clause ∈ clauses, Drawn sort given (.code clause.1) ∧ Drawn sort given (.code clause.2)) :
    Handles host leeway sort deep may (some scope) given ([·]) fun calls =>
      Engine.choose ⟨calls, host⟩ scope clauses := by
  induction clauses generalizing given with
  | nil => exact result (rare.leaf rfl rfl)
  | cons clause clauses ih =>
    obtain ⟨test, action⟩ := clause
    rw [List.forall_mem_cons] at known
    refine .andThen (.evaluate known.1.1) fun value => ?_
    by_cases holds : value.isTruthy = true
    · simp only [if_pos holds]
      exact .evaluate known.1.2.still
    · simp only [if_neg holds]
      exact ih fun clause among => ⟨(known.2 clause among).1.still, (known.2 clause among).2.still⟩

theorem drawn_stepCall (splice : Splice) {step : Step} {value : Value} (stamp : Stamp)
    (known : ∀ expr ∈ step.head :: step.arguments, Drawn sort given (.code expr))
    (held : Drawn sort given value) :
    Drawn sort given (.code (Engine.stepCall splice step (.value value stamp))) := by
  have spliced : Drawn sort given (.code (.value value stamp)) := rare.held held stamp
  rw [List.forall_mem_cons] at known
  cases splice with
  | first =>
    refine rare.call (List.forall_mem_cons.mpr ⟨known.1, ?_⟩)
    exact List.forall_mem_cons.mpr ⟨spliced, known.2⟩
  | last =>
    refine rare.call (List.forall_mem_cons.mpr ⟨known.1, ?_⟩)
    exact List.forall_mem_append.mpr ⟨known.2, List.forall_mem_singleton.mpr spliced⟩

theorem thread (splice : Splice) {value : Value} {steps : List Step} (held : Drawn sort given value)
    (known : ∀ step ∈ steps, ∀ expr ∈ step.head :: step.arguments, Drawn sort given (.code expr)) :
    Handles host leeway sort deep may (some scope) given ([·]) fun calls =>
      Engine.thread ⟨calls, host⟩ scope splice value steps := by
  induction steps generalizing given value with
  | nil => exact result held
  | cons step steps ih =>
    rw [List.forall_mem_cons] at known
    have stamps : Handles host leeway sort deep may (some scope) given (fun _ => [])
        fun _ => Eval.spliceStamp :=
      .own Eval.own_spliceStamp fun _ _ _ => List.forall_mem_nil _
    refine .andThen stamps fun stamp => ?_
    refine .andThen (.evaluate (drawn_stepCall rare splice stamp known.1 held)) fun result => ?_
    exact ih (.of_mem List.mem_cons_self) fun step among expr inside =>
      (known.2 step among expr inside).still

end

end Handles

def Action.exprs : Action → List Expr
  | sequence body => body
  | block body => body
  | bind _ _ value => [value]
  | choose clauses => clauses.flatMap fun clause => [clause.1, clause.2]
  | close _ body => body
  | define _ _ body => body
  | thread _ start steps => start :: steps.flatMap fun step => step.head :: step.arguments
  | quote body => [body]
  | eval body => [body]
  | document _ => []
  | dumpScope => []
  | inspect exprs => exprs

namespace Action

theorem inside_call {items : List Expr} {expr : Expr} (among : expr ∈ items) :
    Inside (.code expr) (.code (.list items)) :=
  .deeper (List.mem_map_of_mem among) .whole

theorem inside_of_read {form : Form} {operator : String} {arguments : List Expr} {action : Action}
    (reads : Action.read form operator arguments = .ok action) :
    ∀ expr ∈ action.exprs, ∃ argument ∈ arguments, Inside (.code expr) (.code argument) := by
  have themselves : ∀ expr ∈ arguments, ∃ argument ∈ arguments, Inside (.code expr) (.code argument) :=
    fun expr among => ⟨expr, among, .whole⟩
  cases reads_of_read reads with
  | sequence | block | inspect => exact themselves
  | quote | eval => exact themselves
  | dumpScope | doc => exact List.forall_mem_nil _
  | label | setGlobal | lambda =>
    exact fun expr among => themselves expr (List.mem_cons_of_mem _ among)
  | define =>
    exact fun expr among => themselves expr (List.mem_cons_of_mem _ (List.mem_cons_of_mem _ among))
  | cond clauses =>
    intro expr among
    obtain ⟨clause, inside, among⟩ := List.mem_flatMap.mp among
    exact ⟨_, List.mem_map_of_mem inside, inside_call among⟩
  | threadFirst start steps | threadLast start steps =>
    intro expr among
    rcases List.mem_cons.mp among with rfl | among
    · exact themselves _ List.mem_cons_self
    · obtain ⟨step, inside, among⟩ := List.mem_flatMap.mp among
      exact ⟨_, List.mem_cons_of_mem _ (List.mem_map_of_mem inside), inside_call among⟩

end Action

namespace Handles

variable {host : Host} {leeway : Leeway} {sort : Value → Prop} {deep may : Fault → Prop}
  {place : Option ScopeId} {scope : ScopeId} {given : List Value}

section

variable (rare : Rare sort)
include rare

theorem perform {action : Action} (known : ∀ expr ∈ action.exprs, Drawn sort given (.code expr)) :
    Handles host leeway sort deep may (some scope) given ([·]) fun calls =>
      Engine.perform ⟨calls, host⟩ scope action := by
  have here : ∀ other, some scope = some other → Near sort (some scope) given other := fun _ => .inl
  cases action with
  | sequence body => exact runBody rare known
  | block body => exact .block here fun inner => runBody rare known
  | bind target name expr =>
    refine .andThen (.evaluate (known expr List.mem_cons_self)) fun value => ?_
    have held : Drawn sort ([value] ++ given) value := .of_mem List.mem_cons_self
    exact .andThen (.bind name target held) fun _ => result held
  | choose clauses =>
    refine choose rare fun clause among => ⟨known _ ?_, known _ ?_⟩
    · exact List.mem_flatMap.mpr ⟨clause, among, by simp⟩
    · exact List.mem_flatMap.mpr ⟨clause, among, by simp⟩
  | close params body => exact .close here params known
  | define name params body =>
    refine .andThen (.close here params known) fun value => ?_
    refine .andThen (.bind name .current (.of_mem List.mem_cons_self)) fun _ => ?_
    exact result (rare.leaf rfl rfl)
  | thread splice start steps =>
    cases steps with
    | nil => exact result (rare.leaf rfl rfl)
    | cons step steps =>
      obtain ⟨first, rest⟩ := List.forall_mem_cons.mp known
      refine .andThen (.evaluate first) fun value => ?_
      refine thread rare splice (.of_mem List.mem_cons_self) fun step among expr inside => ?_
      exact (rest expr (List.mem_flatMap.mpr ⟨step, among, inside⟩)).still
  | quote body => exact result (known body List.mem_cons_self)
  | eval body =>
    refine .andThen (.evaluate (known body List.mem_cons_self)) fun value => ?_
    have held : Drawn sort ([value] ++ given) value := .of_mem List.mem_cons_self
    cases value with
    | code expr => exact .evaluate held
    | _ => exact result held
  | document name =>
    have symbol : Drawn sort given (.code (.symbol name)) := rare.leaf rfl rfl
    refine .andThen (.evaluate symbol) fun value => ?_
    refine plain (Eval.own_get.andThen fun _ => Eval.own_pure _) ?_
    exact (Eval.gives_anything _).andThen fun _ _ => Eval.gives_pure (rare.leaf rfl rfl)
  | dumpScope => exact written rare (.bindings scope)
  | inspect exprs => exact written rare (.inspected scope exprs)

omit rare in
theorem bindParams (params : List String) {arguments : List Value}
    (known : ∀ value ∈ arguments, Drawn sort given value) :
    Handles host leeway sort deep may (some scope) given (fun _ => []) fun _ =>
      Engine.bindParams scope params arguments := by
  have each : ∀ entry ∈ params.zip arguments, Drawn sort given entry.2 :=
    fun entry among => known entry.2 (List.of_mem_zip among).2
  unfold Engine.bindParams
  generalize params.zip arguments = entries at each
  induction entries with
  | nil => exact .own (Eval.own_pure ()) (Eval.gives_pure (List.forall_mem_nil _))
  | cons entry entries ih =>
    obtain ⟨first, others⟩ := List.forall_mem_cons.mp each
    exact .andThen (.bind entry.1 .current first) fun _ => ih others

theorem applyClosure {params : List String} {body : List Expr} {around : Option ScopeId} {stamp : Stamp}
    {arguments : List Value} (usual : ∀ fault, fault.isRead = false → deep fault)
    (called : Drawn sort given (.closure params body around stamp))
    (known : ∀ value ∈ arguments, Drawn sort given value) :
    Handles host leeway sort deep deep place given ([·]) fun calls =>
      Engine.applyClosure ⟨calls, host⟩ params body around arguments := by
  unfold Engine.applyClosure
  by_cases fits : params.length = arguments.length
  · simp only [if_pos fits]
    refine .block (fun scope same => .inr ⟨_, called, same⟩) fun inner =>
      .andThen (bindParams params known) fun _ => ?_
    exact runBody rare fun expr among => (called.piece (List.mem_map_of_mem among)).still
  · simp only [if_neg fits]
    exact ends (Eval.own_fail (usual _ rfl)) (Eval.gives_fail _)


theorem callForm (form : Form) (name : String) {exprs : List Expr}
    (known : ∀ expr ∈ exprs, Drawn sort given (.code expr)) :
    Handles host leeway sort deep may (some scope) given ([·]) fun calls =>
      Engine.callForm ⟨calls, host⟩ scope form name exprs := by
  unfold Engine.callForm
  cases reads : Action.read form name exprs with
  | ok action =>
    refine perform rare fun expr among => ?_
    obtain ⟨argument, present, inside⟩ := Action.inside_of_read reads expr among
    exact (known argument present).inside inside
  | error error => exact written rare (.misshapen error)

theorem callOperator {operator : Value} {exprs : List Expr} (held : Drawn sort given operator)
    (known : ∀ expr ∈ exprs, Drawn sort given (.code expr)) :
    Handles host leeway sort deep may (some scope) given ([·]) fun calls =>
      if operator.isInvokable then do
        let values ← Engine.evaluateAll ⟨calls, host⟩ scope exprs
        calls.invoke operator values
      else Engine.refuse ⟨calls, host⟩ operator := by
  by_cases invokable : operator.isInvokable = true
  · simp only [if_pos invokable]
    refine .andThen (evaluateAll known) fun values => ?_
    refine .invoke (List.forall_mem_cons.mpr ⟨held.still, fun value among => ?_⟩)
    exact .of_mem (List.mem_append_left _ among)
  · simp only [if_neg invokable]
    exact written rare (.refused operator)

end

end Handles

end HostLisp
