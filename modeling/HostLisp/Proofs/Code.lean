import HostLisp.Proofs.Own

/-!
What evaluation can do, said once. Code has at most one scope of its own: there it binds names and
evaluates expressions. Apart from that it binds names in roots, opens new scopes for inner code,
invokes values, writes code and data, and calls the functions of operators. Every step of the evaluator is
code in this sense, so a property of all runs only has to be shown for these few ways of acting.
-/

namespace HostLisp

open Engine

inductive Fault.Refuses : Fault → Prop where
  | notCallable (shown : String) : Refuses (.failure (.notCallable shown))
  | shape (message : String) : Refuses (.failure (.shape message))

theorem Fault.isRead_of_refuses {fault : Fault} (refuses : fault.Refuses) : fault.isRead = false := by
  cases refuses <;> rfl

/-- The runs that write code or data, with the flaw it may have for a room and some scopes. -/
inductive Writes (host : Host) : (Calls → Eval Value) → (Nat → Store → Option Flaw) → Prop where
  | bindings (scope : ScopeId) :
      Writes host (fun calls => perform ⟨calls, host⟩ scope .dumpScope)
        fun room store => (store.look (room + 1) false scope).flaw? (room + 1)
  | inspected (scope : ScopeId) (exprs : List Expr) :
      Writes host (fun calls => perform ⟨calls, host⟩ scope (.inspect exprs))
        fun room store => Expr.flawAmong? room (exprs.map (Expr.pictured (store.look room) true))
  | refused (value : Value) :
      Writes host (fun calls => refuse ⟨calls, host⟩ value)
        fun room store => (value.pictured (store.look room) true).flaw? room
  | misshapen (error : ShapeError) :
      Writes host (fun calls => misshape ⟨calls, host⟩ error)
        fun room store => error.flaw? (store.look room) room
  | shown (name : String) (exprs : List Value) :
      Writes host (fun calls => Native.shownCall calls.room name exprs)
        fun room store => Value.flawAmong? room (exprs.map (Value.pictured (store.look room) false))
  | signature (function : Value) :
      Writes host (fun calls => lookOver ⟨calls, host⟩ function)
        fun room store => function.signatureFlaw? room (store.look room)
  | text (value : Value) :
      Writes host (fun calls => Kind.text.makePlain ⟨calls, host⟩ [value])
        fun room store => (value.pictured (store.look room) false).flaw? room

namespace Writes

variable {host : Host} {run : Calls → Eval Value} {flaw? : Nat → Store → Option Flaw}

theorem looks (writes : Writes host run flaw?) (calls : Calls) (state : State) :
    ∃ act : Eval Value, act.Own Fault.Refuses ∧ (run calls).outcome state =
      (Eval.unlessFlawed (flaw? calls.room state.scopes) act).outcome state := by
  cases writes with
  | bindings scope => exact ⟨_, Eval.own_pure _, Eval.outcome_get_bind state⟩
  | inspected scope exprs =>
    exact ⟨_, (Eval.own_print _).andThen fun _ => Eval.own_pure _, Eval.outcome_get_bind state⟩
  | refused value => exact ⟨_, Eval.own_fail (.notCallable _), Eval.outcome_get_bind state⟩
  | misshapen error => exact ⟨_, Eval.own_fail (.shape _), Eval.outcome_get_bind state⟩
  | shown name exprs => exact ⟨_, Eval.own_pure _, Eval.outcome_get_bind state⟩
  | signature function => exact ⟨_, Eval.own_pure _, Eval.outcome_get_bind state⟩
  | text value => exact ⟨_, Eval.own_pure _, Eval.outcome_get_bind state⟩

theorem own (writes : Writes host run flaw?) (calls : Calls) :
    (run calls).Own fun fault => fault.isRead = false := by
  have each (state : State) : ∃ act : Eval Value, act.Own (fun fault => fault.isRead = false) ∧
      (run calls).outcome state = act.outcome state := by
    obtain ⟨act, acts, same⟩ := writes.looks calls state
    refine ⟨_, Eval.own_unlessFlawed _ (fun _ => rfl) (acts.weaken fun fault refuses => ?_), same⟩
    exact Fault.isRead_of_refuses refuses
  constructor
  · intro state
    obtain ⟨act, acts, same⟩ := each state
    rw [same]
    exact acts.scopes state
  · intro state fault ended
    obtain ⟨act, acts, same⟩ := each state
    rw [same] at ended
    exact acts.faults state fault ended

theorem scopes (writes : Writes host run flaw?) (calls : Calls) (state : State) :
    ((run calls).outcome state).2.scopes = state.scopes := (writes.own calls).scopes state

theorem outcome_of_flaw (writes : Writes host run flaw?) {calls : Calls} (state : State) {flaw : Flaw}
    (flawed : flaw? calls.room state.scopes = some flaw) :
    (run calls).outcome state = (.error (.crash flaw.crash), state) := by
  obtain ⟨act, _, same⟩ := writes.looks calls state
  rw [same, flawed]
  rfl

theorem flaw_of_crash (writes : Writes host run flaw?) {calls : Calls} {state : State} {cause : Crash}
    (crashed : ((run calls).outcome state).1 = .error (.crash cause)) :
    ∃ flaw, flaw? calls.room state.scopes = some flaw ∧ cause = flaw.crash := by
  obtain ⟨act, acts, same⟩ := writes.looks calls state
  rw [same] at crashed
  cases found : flaw? calls.room state.scopes with
  | none =>
    rw [found] at crashed
    cases acts.faults state (.crash cause) crashed
  | some flaw =>
    rw [found] at crashed
    cases crashed
    exact ⟨flaw, rfl, rfl⟩

end Writes

/-- What the functions of a host may do besides acting on their own, writing and invoking values:
evaluate code in scopes they were handed, and go on after a fault of a call. -/
structure Leeway where
  roams : Prop
  recovers : Prop

namespace Leeway

def orderly : Leeway := ⟨True, False⟩

def full : Leeway := ⟨True, True⟩

end Leeway

/-- Computations of a host. They leave the scopes alone but for what the calls do that they make. -/
inductive Outside (host : Host) (leeway : Leeway) : {α : Type} → (Calls → Eval α) → Prop where
  | own {α : Type} {act : Eval α} (acts : act.Own fun _ => True) : Outside host leeway fun _ => act
  | write {run : Calls → Eval Value} {flaw? : Nat → Store → Option Flaw}
      (writes : Writes host run flaw?) : Outside host leeway run
  | call (operator : Value) (arguments : List Value) :
      Outside host leeway fun calls => calls.invoke operator arguments
  | evaluate (allowed : leeway.roams) (scope : ScopeId) (expr : Expr) :
      Outside host leeway fun calls => calls.evaluate scope expr
  | andThen {α β : Type} {first : Calls → Eval α} {next : α → Calls → Eval β}
      (before : Outside host leeway first) (rest : ∀ value, Outside host leeway (next value)) :
      Outside host leeway fun calls => first calls >>= fun value => next value calls
  | recover (allowed : leeway.recovers) {α : Type} {run : Calls → Eval α}
      {handler : Fault → Calls → Eval α} (tries : Outside host leeway run)
      (goesOn : ∀ fault, Outside host leeway (handler fault)) :
      Outside host leeway fun calls => tryCatch (run calls) fun fault => handler fault calls

namespace Host

structure Abides (host : Host) (leeway : Leeway) : Prop where
  run : ∀ native arguments, Outside host leeway fun calls => host.run calls native arguments
  other : ∀ operator arguments, Outside host leeway fun calls => host.other calls operator arguments

abbrev Orderly (host : Host) : Prop := host.Abides .orderly

end Host

theorem Engine.own_closure {may : Fault → Prop} (params : List String) (body : List Expr)
    (around : Option ScopeId) : (Engine.closure params body around).Own may :=
  Eval.own_stamp.andThen fun _ => Eval.own_pure _

/-- Computations that act in a place, if they have one, given a way to make calls. Their own actions
end only in the ways they may, apart from those of functions that operators call directly. -/
inductive Code (host : Host) (leeway : Leeway) :
    (Fault → Prop) → {α : Type} → Option ScopeId → (Calls → Eval α) → Prop where
  | own {may : Fault → Prop} {α : Type} {place : Option ScopeId} {act : Eval α} (acts : act.Own may) :
      Code host leeway may place fun _ => act
  | write {may : Fault → Prop} {place : Option ScopeId} {run : Calls → Eval Value}
      {flaw? : Nat → Store → Option Flaw} (writes : Writes host run flaw?) :
      Code host leeway may place run
  | bindHere {may : Fault → Prop} (scope : ScopeId) (name : String) (value : Value) :
      Code host leeway may (some scope) fun _ => bindAt scope name value .current
  | bindRoot {may : Fault → Prop} {place : Option ScopeId} (scope : ScopeId) (name : String)
      (value : Value) : Code host leeway may place fun _ => bindAt scope name value .root
  | evaluate {may : Fault → Prop} (scope : ScopeId) (expr : Expr) :
      Code host leeway may (some scope) fun calls => calls.evaluate scope expr
  | invoke {may : Fault → Prop} {place : Option ScopeId} (operator : Value)
      (arguments : List Value) :
      Code host leeway may place fun calls => calls.invoke operator arguments
  | block {may : Fault → Prop} {α : Type} {place : Option ScopeId} (around : Option ScopeId)
      {body : ScopeId → Calls → Eval α}
      (inside : ∀ inner, Code host leeway may (some inner) (body inner)) :
      Code host leeway may place fun calls => Eval.child around >>= fun inner => body inner calls
  | andThen {may : Fault → Prop} {α β : Type} {place : Option ScopeId} {first : Calls → Eval α}
      {next : α → Calls → Eval β} (before : Code host leeway may place first)
      (rest : ∀ value, Code host leeway may place (next value)) :
      Code host leeway may place fun calls => first calls >>= fun value => next value calls
  | expand {may : Fault → Prop} {place : Option ScopeId} {function : Value} {arguments : List Value}
      (inside : Code host leeway (fun _ => True) place fun calls =>
        direct ⟨calls, host⟩ function arguments) :
      Code host leeway may place fun calls => direct ⟨calls, host⟩ function arguments
  | roam (allowed : leeway.roams) {may : Fault → Prop} {place : Option ScopeId} (scope : ScopeId)
      (expr : Expr) : Code host leeway may place fun calls => calls.evaluate scope expr
  | recover (allowed : leeway.recovers) {may : Fault → Prop} {α : Type} {place : Option ScopeId}
      {run : Calls → Eval α} {handler : Fault → Calls → Eval α}
      (tries : Code host leeway may place run)
      (goesOn : ∀ fault, Code host leeway may place (handler fault)) :
      Code host leeway may place fun calls => tryCatch (run calls) fun fault => handler fault calls

namespace Code

variable {may : Fault → Prop} {α : Type} {place : Option ScopeId} {scope : ScopeId} {host : Host}
  {leeway : Leeway}

theorem unlimited {run : Calls → Eval α} (code : Code host leeway may place run) :
    Code host leeway (fun _ => True) place run := by
  induction code with
  | own acts => exact .own (acts.weaken fun _ _ => trivial)
  | write writes => exact .write writes
  | bindHere scope name value => exact .bindHere scope name value
  | bindRoot scope name value => exact .bindRoot scope name value
  | evaluate scope expr => exact .evaluate scope expr
  | invoke operator arguments => exact .invoke operator arguments
  | block around _ inside => exact .block around inside
  | andThen _ _ first rest => exact .andThen first rest
  | expand inside => exact inside
  | roam allowed scope expr => exact .roam allowed scope expr
  | recover allowed _ _ tries goesOn => exact .recover allowed tries goesOn

end Code

end HostLisp
