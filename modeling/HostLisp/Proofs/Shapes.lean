import HostLisp.Proofs.Parts

/-!
The shapes that special forms ask for. Arguments are read as an action exactly if they have the shape,
and then they can be told from the action.
-/

namespace HostLisp

namespace Expr

def isSymbol : Expr → Bool
  | symbol _ => true
  | _ => false

def isClause : Expr → Bool
  | list [_, _] => true
  | _ => false

def isCall : Expr → Bool
  | list (_ :: _) => true
  | _ => false

end Expr

namespace Form

def acceptsClosure : List Expr → Bool
  | .vector params :: _ :: _ => params.all Expr.isSymbol
  | _ => false

/-- The shape of its arguments that a form asks for. -/
def accepts : Form → List Expr → Bool
  | label, arguments | setGlobal, arguments =>
    match arguments with
    | [name, _] => name.isSymbol
    | _ => false
  | cond, clauses => clauses.all Expr.isClause
  | lambda, arguments => acceptsClosure arguments
  | define, arguments =>
    match arguments with
    | name :: rest => name.isSymbol && acceptsClosure rest
    | [] => false
  | threadFirst, arguments | threadLast, arguments =>
    match arguments with
    | _ :: steps => steps.all Expr.isCall
    | [] => false
  | quote, arguments | eval, arguments => arguments.length == 1
  | doc, arguments =>
    match arguments with
    | [name] => name.isSymbol
    | _ => false
  | _, _ => true

/-- The flaw of what a form writes itself, called in a scope: the first step of a thread that is no
call stands in the message about it. -/
def flaw? (room : Nat) (store : Store) (scope : ScopeId) : Form → List Expr → Option Flaw
  | threadFirst, arguments | threadLast, arguments =>
    (arguments.tail.find? fun step => !step.isCall).bind fun step =>
      (step.pictured (store.look room) false).flaw? room
  | dumpScope, _ => (store.look (room + 1) false scope).flaw? (room + 1)
  | inspect, exprs => Expr.flawAmong? room (exprs.map (Expr.pictured (store.look room) true))
  | _, _ => none

end Form

theorem Except.map_eq_error {ε α β : Type} {f : α → β} {result : Except ε α} {error : ε}
    (mapped : f <$> result = .error error) : result = .error error := by
  cases result with
  | error found =>
    cases mapped
    rfl
  | ok found => cases mapped

theorem Except.mapM_eq_error {ε α β : Type} {f : α → Except ε β} {items : List α} {error : ε}
    (mapped : items.mapM f = .error error) : ∃ item ∈ items, f item = .error error := by
  induction items with
  | nil => cases mapped
  | cons item items ih =>
    rw [List.mapM_cons] at mapped
    cases first : f item with
    | error found =>
      rw [first] at mapped
      cases mapped
      exact ⟨item, List.mem_cons_self, first⟩
    | ok result =>
      rw [first] at mapped
      obtain ⟨refused, among, same⟩ := ih (Except.map_eq_error mapped)
      exact ⟨refused, List.mem_cons_of_mem _ among, same⟩

theorem Except.eq_map_of_mapM {ε α β : Type} {f : α → Except ε β} {g : β → α}
    (inverse : ∀ {item result}, f item = .ok result → item = g result) {items : List α}
    {results : List β} (mapped : items.mapM f = .ok results) : items = results.map g := by
  induction items generalizing results with
  | nil =>
    cases mapped
    rfl
  | cons item items ih =>
    rw [List.mapM_cons] at mapped
    obtain ⟨first, made, mapped⟩ := Except.bind_eq_ok mapped
    obtain ⟨others, rest, mapped⟩ := Except.bind_eq_ok mapped
    cases mapped
    rw [List.map_cons, ← inverse made, ← ih rest]

namespace Action

theorem readClause_ok {argument : Expr} {clause : Expr × Expr}
    (reads : readClause argument = .ok clause) : argument = .list [clause.1, clause.2] := by
  unfold readClause at reads
  split at reads
  all_goals cases reads
  rfl

theorem readSteps_ok {operator : String} {position : Nat} {others : List Expr} {steps : List Step}
    (reads : readSteps operator position others = .ok steps) :
    others = steps.map fun step => .list (step.head :: step.arguments) := by
  induction others generalizing position steps with
  | nil =>
    cases reads
    rfl
  | cons other others ih =>
    unfold readSteps at reads
    split at reads
    · next same => cases same
    · next same =>
      obtain ⟨later, rest, reads⟩ := Except.bind_eq_ok reads
      cases reads
      cases same
      rw [ih rest, List.map_cons]
    · cases reads

theorem readParams_ok {params : Expr} {names : List String}
    (reads : readParams params = .ok names) : params = .vector (names.map .symbol) := by
  unfold readParams at reads
  split at reads
  · refine congrArg Expr.vector (Except.eq_map_of_mapM (fun {param name} read => ?_) reads)
    unfold readParam at read
    split at read
    all_goals cases read
    rfl
  · cases reads

inductive Reads (operator : String) : Form → List Expr → Action → Prop where
  | sequence (body : List Expr) : Reads operator .sequence body (.sequence body)
  | block (body : List Expr) : Reads operator .block body (.block body)
  | label (name : String) (value : Expr) :
      Reads operator .label [.symbol name, value] (.bind .current name value)
  | setGlobal (name : String) (value : Expr) :
      Reads operator .setGlobal [.symbol name, value] (.bind .root name value)
  | cond (clauses : List (Expr × Expr)) :
      Reads operator .cond (clauses.map fun clause => .list [clause.1, clause.2]) (.choose clauses)
  | lambda (params : List String) (first : Expr) (body : List Expr) :
      Reads operator .lambda (.vector (params.map .symbol) :: first :: body)
        (.close params (first :: body))
  | define (name : String) (params : List String) (first : Expr) (body : List Expr) :
      Reads operator .define (.symbol name :: .vector (params.map .symbol) :: first :: body)
        (.define name params (first :: body))
  | threadFirst (start : Expr) (steps : List Step) :
      Reads operator .threadFirst (start :: steps.map fun step => .list (step.head :: step.arguments))
        (.thread .first start steps)
  | threadLast (start : Expr) (steps : List Step) :
      Reads operator .threadLast (start :: steps.map fun step => .list (step.head :: step.arguments))
        (.thread .last start steps)
  | quote (body : Expr) : Reads operator .quote [body] (.quote body)
  | eval (body : Expr) : Reads operator .eval [body] (.eval body)
  | doc (name : String) : Reads operator .doc [.symbol name] (.document name)
  | dumpScope (arguments : List Expr) : Reads operator .dumpScope arguments .dumpScope
  | inspect (exprs : List Expr) : Reads operator .inspect exprs (.inspect exprs)

theorem reads_of_read {form : Form} {operator : String} {arguments : List Expr} {action : Action}
    (reads : read form operator arguments = .ok action) : Reads operator form arguments action := by
  cases form with
  | sequence | block | dumpScope | inspect =>
    cases reads
    constructor
  | label | setGlobal =>
    simp only [read] at reads
    unfold readBinding at reads
    split at reads
    all_goals cases reads
    constructor
  | cond =>
    obtain ⟨clauses, mapped, rfl⟩ := Except.map_eq_ok reads
    rw [Except.eq_map_of_mapM readClause_ok mapped]
    exact .cond clauses
  | lambda =>
    simp only [read] at reads
    unfold readLambda at reads
    split at reads
    · obtain ⟨params, read, rfl⟩ := Except.map_eq_ok reads
      rw [readParams_ok read]
      exact .lambda params _ _
    · cases reads
  | define =>
    simp only [read] at reads
    unfold readDefine at reads
    split at reads
    · obtain ⟨params, read, rfl⟩ := Except.map_eq_ok reads
      rw [readParams_ok read]
      exact .define _ params _ _
    · cases reads
    · cases reads
  | threadFirst | threadLast =>
    cases arguments with
    | nil => cases reads
    | cons start others =>
      obtain ⟨steps, read, rfl⟩ := Except.map_eq_ok reads
      rw [readSteps_ok read]
      constructor
  | quote | eval =>
    simp only [read] at reads
    split at reads
    all_goals cases reads
    constructor
  | doc =>
    simp only [read] at reads
    unfold readDocument at reads
    split at reads
    all_goals cases reads
    constructor

end Action

end HostLisp
