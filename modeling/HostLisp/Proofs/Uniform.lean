import HostLisp.Proofs.Constructions
import HostLisp.Proofs.Within

/-!
Evaluation pays no attention to names. An engine whose calls keep likeness takes steps that keep it,
so engines of every depth do alike things with alike expressions in sessions that correspond.
-/

namespace HostLisp

open Eval

namespace Engine

theorem operatorName_smul (f : Renaming) (head : Expr) : operatorName (f • head) = operatorName head := by
  cases head <;> rfl

theorem documentation_smul (f : Renaming) (name doc : String) (value : Value) :
    documentation name doc (f • value) = documentation name doc value := by
  rw [documentation, Value.kindOf_smul, documentation]

theorem literalNumber?_smul (f : Renaming) (raw : String) (known : Option Floating) :
    Expr.literalNumber? raw (f • known) = f • Expr.literalNumber? raw known := by
  cases known with
  | none => exact (Floating.smul_ofText? f raw).symm
  | some x => rfl

variable {p : Pairing} {scope scope' : ScopeId}

theorem like_stepCall (splice : Splice) {step step' : Step} (like : p.Like step step')
    {value value' : Expr} (held : p.Like value value') :
    p.Like (stepCall splice step value) (stepCall splice step' value') := by
  have head : p.Like step.head step'.head := like.map Step.head fun _ _ => rfl
  have arguments : p.Like step.arguments step'.arguments := like.map Step.arguments fun _ _ => rfl
  cases splice with
  | first => exact (head.cons (held.cons arguments)).listExpr
  | last => exact (head.cons (arguments.append (held.cons .nil))).listExpr

theorem alike_refuse (engine : Engine) {value value' : Value} (like : p.Like value value') :
    Alike p Pairing.Like (engine.refuse value) (engine.refuse value') := by
  refine .get fun q later left right between => ?_
  simp only [between.pictured (like.mono later), Value.flaw?_smul, Value.describe_smul]
  exact .unlessFlawed _ (.fail _)

theorem alike_misshape (engine : Engine) {error error' : ShapeError} (like : p.Like error error') :
    Alike p Pairing.Like (engine.misshape error) (engine.misshape error') := by
  refine .get fun q later left right between => ?_
  obtain ⟨rfl, covers⟩ := like.mono later
  cases error with
  | stepNotCall operator position step =>
    have held : q.Like step (q.names • step) :=
      ⟨rfl, covers.part fun _ _ same => (ShapeError.stepNotCall.inj same).2.2⟩
    have shown := between.picturedExpr held engine.room false
    have flaws : (ShapeError.stepNotCall operator position (q.names • step)).flaw?
        (right.scopes.look engine.room) engine.room =
          (ShapeError.stepNotCall operator position step).flaw? (left.scopes.look engine.room)
            engine.room := by
      rw [ShapeError.flaw?, shown, Expr.flaw?_smul, ShapeError.flaw?]
    have messages : (ShapeError.stepNotCall operator position (q.names • step)).message
        (right.scopes.look engine.room) =
          (ShapeError.stepNotCall operator position step).message (left.scopes.look engine.room) :=
      congrArg
        (fun source => ShapeError.calledBy operator "thread" ++
          s!": argument {position} must be a function call, not '{source}'")
        ((congrArg Expr.source shown).trans (Expr.source_smul _ _))
    change Alike q _ (Eval.unlessFlawed _ (Eval.fail (.shape _)))
      (Eval.unlessFlawed ((ShapeError.stepNotCall operator position (q.names • step)).flaw? _ _)
        (Eval.fail (.shape ((ShapeError.stepNotCall operator position (q.names • step)).message _))))
    rw [flaws, messages]
    exact .unlessFlawed _ (.fail _)
  | _ => exact .unlessFlawed none (.fail _)

theorem alike_bindAt (scopes : p.Like (Name.scope scope) (.scope scope')) (name : String)
    {value value' : Value} (like : p.Like value value') (target : Target) :
    Alike p (fun _ _ _ => True) (bindAt scope name value target) (bindAt scope' name value' target) := by
  cases target with
  | current => exact alike_bind scopes name like
  | root =>
    refine .get fun q later left right between => ?_
    obtain ⟨same, covers⟩ := scopes.mono later
    have among := between.mem covers
    have roots : q.Like (Name.scope (left.scopes.root scope)) (.scope (right.scopes.root scope')) := by
      rw [Name.scope.inj same, between.root among]
      exact ⟨rfl, .of_mem (between.root_mem among)⟩
    exact alike_bind roots name (like.mono later)

theorem alike_bindParams (scopes : p.Like (Name.scope scope) (.scope scope')) (params : List String)
    {arguments arguments' : List Value} (like : p.Like arguments arguments') :
    Alike p (fun _ _ _ => True) (bindParams scope params arguments)
      (bindParams scope' params arguments') := by
  unfold bindParams
  induction params generalizing p arguments arguments' with
  | nil => exact .of_results (fun _ => rfl) (fun _ => rfl) fun _ _ => .ok trivial
  | cons name params ih =>
    cases arguments with
    | nil =>
      rw [like.of_nil]
      exact .of_results (fun _ => rfl) (fun _ => rfl) fun _ _ => .ok trivial
    | cons value values =>
      obtain ⟨value', values', rfl, head, rest⟩ := like.of_cons
      rw [List.zip_cons_cons, List.zip_cons_cons]
      exact (alike_bind scopes name head).bind fun q later _ _ _ =>
        ih (scopes.mono later) (rest.mono later)

end Engine

namespace Calls.Uniform

variable {calls : Calls} {host : Host} (uniform : calls.Uniform) {p : Pairing} {scope scope' : ScopeId}

section

variable (scopes : p.Like (Name.scope scope) (.scope scope'))
include uniform scopes

theorem runBody {body body' : List Expr} (like : p.Like body body') :
    Alike p Pairing.Like (Engine.runBody ⟨calls, host⟩ scope body)
      (Engine.runBody ⟨calls, host⟩ scope' body') :=
  .foldlM like (fun _ later _ _ _ _ _ expr => uniform.evaluate (scopes.mono later) expr)
    (.of_fixed fun _ => rfl)

theorem evaluateAll {exprs exprs' : List Expr} (like : p.Like exprs exprs') :
    Alike p Pairing.Like (Engine.evaluateAll ⟨calls, host⟩ scope exprs)
      (Engine.evaluateAll ⟨calls, host⟩ scope' exprs') :=
  .mapM like fun _ later _ _ expr => uniform.evaluate (scopes.mono later) expr

theorem choose {clauses clauses' : List (Expr × Expr)} (like : p.Like clauses clauses') :
    Alike p Pairing.Like (Engine.choose ⟨calls, host⟩ scope clauses)
      (Engine.choose ⟨calls, host⟩ scope' clauses') := by
  induction clauses generalizing p clauses' with
  | nil =>
    rw [like.of_nil]
    exact .pure (.of_fixed fun _ => rfl)
  | cons clause clauses ih =>
    obtain ⟨⟨test', action'⟩, clauses', rfl, head, rest⟩ := like.of_cons
    obtain ⟨test, action⟩ := clause
    have tests : p.Like test test' := head.map Prod.fst fun _ _ => rfl
    have actions : p.Like action action' := head.map Prod.snd fun _ _ => rfl
    refine (uniform.evaluate scopes tests).bind fun q later value value' like => ?_
    rw [like.1, Value.isTruthy_smul]
    split
    · exact uniform.evaluate (scopes.mono later) (actions.mono later)
    · exact ih (scopes.mono later) (rest.mono later)

theorem thread (splice : Splice) {steps steps' : List Step} (like : p.Like steps steps') :
    ∀ {value value' : Value}, p.Like value value' →
      Alike p Pairing.Like (Engine.thread ⟨calls, host⟩ scope splice value steps)
        (Engine.thread ⟨calls, host⟩ scope' splice value' steps') := by
  induction steps generalizing p steps' with
  | nil =>
    rw [like.of_nil]
    exact .pure
  | cons step steps ih =>
    obtain ⟨step', steps', rfl, head, rest⟩ := like.of_cons
    intro value value' held
    refine alike_spliceStamp.bind fun q later stamp stamp' placed => ?_
    have call := Engine.like_stepCall splice (head.mono later) ((held.mono later).spliced placed)
    refine (uniform.evaluate (scopes.mono later) call).bind fun r more result result' like => ?_
    exact ih (scopes.mono (later.trans more)) (rest.mono (later.trans more)) like

theorem perform {action action' : Action} (like : p.Like action action') :
    Alike p Pairing.Like (Engine.perform ⟨calls, host⟩ scope action)
      (Engine.perform ⟨calls, host⟩ scope' action') := by
  obtain ⟨rfl, covers⟩ := like
  cases action with
  | sequence body => exact uniform.runBody scopes ⟨rfl, covers.part fun _ _ => Action.sequence.inj⟩
  | block body =>
    refine (alike_child scopes.around).bind fun q later inner inner' scopes => ?_
    exact uniform.runBody scopes (Pairing.Like.mono ⟨rfl, covers.part fun _ _ => Action.block.inj⟩ later)
  | bind target name expr =>
    have held : p.Like expr (p.names • expr) :=
      ⟨rfl, covers.part fun _ _ same => (Action.bind.inj same).2.2⟩
    refine (uniform.evaluate scopes held).bind fun q later value value' like => ?_
    refine (Engine.alike_bindAt (scopes.mono later) name like target).bind fun r more _ _ _ => ?_
    exact .pure (like.mono more)
  | choose clauses => exact uniform.choose scopes ⟨rfl, covers.part fun _ _ => Action.choose.inj⟩
  | close params body =>
    exact Engine.alike_closure scopes.around params
      ⟨rfl, covers.part fun _ _ same => (Action.close.inj same).2⟩
  | define name params body =>
    have held : p.Like body (p.names • body) :=
      ⟨rfl, covers.part fun _ _ same => (Action.define.inj same).2.2⟩
    refine (Engine.alike_closure scopes.around params held).bind fun q later value value' like => ?_
    refine (alike_bind (scopes.mono later) name like).bind fun r more _ _ _ => ?_
    exact .pure (.of_fixed fun _ => rfl)
  | thread splice start steps =>
    have starts : p.Like start (p.names • start) :=
      ⟨rfl, covers.part fun _ _ same => (Action.thread.inj same).2.1⟩
    have held : p.Like steps (p.names • steps) :=
      ⟨rfl, covers.part fun _ _ same => (Action.thread.inj same).2.2⟩
    cases steps with
    | nil => exact .pure (.of_fixed fun _ => rfl)
    | cons step steps =>
      exact (uniform.evaluate scopes starts).bind fun q later value value' like =>
        uniform.thread (scopes.mono later) splice (held.mono later) like
  | quote body => exact .pure (Pairing.Like.code ⟨rfl, covers.part fun _ _ => Action.quote.inj⟩)
  | eval body =>
    have held : p.Like body (p.names • body) := ⟨rfl, covers.part fun _ _ => Action.eval.inj⟩
    refine (uniform.evaluate scopes held).bind fun q later value value' like => ?_
    obtain ⟨rfl, covers⟩ := like
    cases value with
    | code expr =>
      exact uniform.evaluate (scopes.mono later) ⟨rfl, covers.part fun _ _ => Value.code.inj⟩
    | _ => exact .pure ⟨rfl, covers⟩
  | document name =>
    refine (uniform.evaluate scopes (.of_fixed fun _ => rfl)).bind fun q later value value' like => ?_
    refine .get fun r more left right between => ?_
    obtain ⟨same, covers⟩ := scopes.mono (later.trans more)
    rw [Name.scope.inj same, between.doc (between.mem covers), like.1, Engine.documentation_smul]
    exact .pure (.of_fixed fun _ => rfl)
  | dumpScope =>
    refine .get fun q later left right between => ?_
    obtain ⟨same, covers⟩ := scopes.mono later
    simp only [Name.scope.inj same, between.look _ _ (between.mem covers)]
    exact .unlessFlawed _ (.pure (.of_fixed fun _ => rfl))
  | inspect exprs =>
    refine .get fun q later left right between => ?_
    have held : q.Like exprs (p.names • exprs) :=
      Pairing.Like.mono ⟨rfl, covers.part fun _ _ => Action.inspect.inj⟩ later
    have shown : (p.names • exprs).map (Expr.pictured (right.scopes.look calls.room) true) =
        q.names • exprs.map (Expr.pictured (left.scopes.look calls.room) true) :=
      Pairing.Between.map_like (fun like => between.picturedExpr like calls.room true) held
    simp only [shown, Expr.flawAmong?_smul, Expr.trees_smul]
    exact .unlessFlawed _ ((alike_print _).bind fun _ _ _ _ _ => .pure (.of_fixed fun _ => rfl))

theorem callForm (form : Form) (name : String) {exprs exprs' : List Expr} (like : p.Like exprs exprs') :
    Alike p Pairing.Like (Engine.callForm ⟨calls, host⟩ scope form name exprs)
      (Engine.callForm ⟨calls, host⟩ scope' form name exprs') := by
  have reads : p.Like (Action.read form name exprs) (Action.read form name exprs') :=
    like.map _ fun f exprs => Action.read_smul f form name exprs
  unfold Engine.callForm
  rw [reads.1]
  cases read : Action.read form name exprs with
  | ok action =>
    rw [read] at reads
    exact uniform.perform scopes (reads.part fun _ _ => Except.ok.inj)
  | error error =>
    rw [read] at reads
    exact Engine.alike_misshape _ (reads.part fun _ _ => Except.error.inj)

end

/-! ### Calls -/

section

variable (hosts : host.Uniform)
include uniform hosts

theorem other {operator operator' : Value} (operators : p.Like operator operator')
    {arguments arguments' : List Value} (like : p.Like arguments arguments') :
    Alike p Pairing.Like (Engine.other ⟨calls, host⟩ operator arguments)
      (Engine.other ⟨calls, host⟩ operator' arguments') := hosts.other uniform operators like

omit uniform hosts in
theorem guard (window : Window) (name : String) {run run' : List Value → Eval Value}
    (runs : ∀ q ≥ p, ∀ arguments arguments', q.Like arguments arguments' →
      Alike q Pairing.Like (run arguments) (run' arguments')) {arguments arguments' : List Value}
    (like : p.Like arguments arguments') :
    Alike p Pairing.Like (window.guard name run arguments) (window.guard name run' arguments') := by
  have count : arguments'.length = arguments.length := by rw [like.1, length_smul]
  have checked : Alike p (fun _ _ _ => True)
      (Eval.ofExcept .failure (window.checkArity name arguments.length))
      (Eval.ofExcept .failure (window.checkArity name arguments.length)) := by
    unfold Window.checkArity
    split
    · exact .of_results (fun _ => rfl) (fun _ => rfl) fun _ _ => .ok trivial
    · exact .fail _
  unfold Window.guard
  rw [count]
  refine checked.bind fun q later _ _ _ => ?_
  have converted := (like.mono later).map _ fun f arguments => window.convertFrom_smul f name 0 arguments
  refine (Alike.ofExcept (fun _ _ => rfl) converted).bind fun r more values values' held => ?_
  exact runs r (later.trans more) values values' held

theorem direct : ∀ (function : Value) {q : Pairing} {arguments arguments' : List Value},
    Covers q.domain function → q.Like arguments arguments' →
    Alike q Pairing.Like (Engine.direct ⟨calls, host⟩ function arguments)
      (Engine.direct ⟨calls, host⟩ (q.names • function) arguments')
  | .closure params body around stamp, q, _, _, covers, like => by
    have held : q.Like (Value.closure params body around stamp)
      (q.names • Value.closure params body around stamp) := ⟨rfl, covers⟩
    simp only [Value.smul_closure] at held ⊢
    exact uniform.invoke held like
  | .form form, q, arguments, _, _, like => by
    have others := uniform.other hosts (.of_fixed fun _ => rfl
      : q.Like (Value.form form) (.form form)) like
    obtain ⟨rfl, covers⟩ := like
    have reads := Value.codeCall?_smul q.names arguments
    simp only [Value.smul_form, Engine.direct]
    rw [reads]
    cases read : Value.codeCall? arguments with
    | none => exact others
    | some call =>
      obtain ⟨scope, name, exprs⟩ := call
      have parts : ∀ f g : Renaming, f • arguments = g • arguments →
          f.scope scope = g.scope scope ∧ f • exprs = g • exprs := by
        intro f g same
        have called := congrArg Value.codeCall? same
        rw [Value.codeCall?_smul, Value.codeCall?_smul, read] at called
        simpa using called
      exact uniform.callForm
        ⟨rfl, covers.part fun f g same => congrArg Name.scope (parts f g same).1⟩ form name
        ⟨rfl, covers.part fun f g same => (parts f g same).2⟩
  | .operative function name stamp, q, arguments, _, covers, like => by
    have others := uniform.other hosts ⟨rfl, covers⟩ like
    have wrapped : Covers q.domain function := covers.part fun _ _ same => (Value.operative.inj same).1
    have lists := like.map Value.listed? Value.listed?_smul
    simp only [Value.smul_operative, Engine.direct] at others ⊢
    rw [lists.1]
    cases read : Value.listed? arguments with
    | none => exact others
    | some items =>
      rw [read] at lists
      exact direct function wrapped ⟨rfl, lists.2.part fun _ _ => Option.some.inj⟩
  | .native native, _, _, _, _, like => hosts.run uniform native like
  | .adapter function name window stamp, q, _, _, covers, like => by
    have wrapped : Covers q.domain function := covers.part fun _ _ same => (Value.adapter.inj same).1
    refine guard window name (fun r more arguments arguments' like => ?_) like
    change Alike r _ _ (Engine.direct _ (q.names • function) arguments')
    rw [wrapped q.names r.names more.2]
    exact direct function (wrapped.mono more.1) like
  | .kind kind, _, _, _, _, like => kind.alike_construct uniform hosts like
  | .code expr, q, _, _, _, _ => by
    have kinds : (q.names • expr).kind = expr.kind := Expr.kind_smul q.names expr
    change Alike q _ (Eval.crash (.notCallable expr.kind))
      (Eval.crash (.notCallable (q.names • expr).kind))
    rw [kinds]
    exact .crash _
  | .nil, _, _, _, _, _ | .bool _, _, _, _, _, _ | .float _, _, _, _, _, _ | .int _, _, _, _, _, _
  | .complex _ _, _, _, _, _, _ | .text _, _, _, _, _, _ | .list _, _, _, _, _, _
  | .tuple _, _, _, _, _, _ | .dict, _, _, _, _, _ | .machineBool _, _, _, _, _, _
  | .machineInt _ _, _, _, _, _, _ | .machineFloat _ _, _, _, _, _, _ | .array _ _ _ _, _, _, _, _, _
  | .scope _, _, _, _, _, _ | .picture _ _ _, _, _, _, _, _ => .crash _

end

section
variable (scopes : p.Like (Name.scope scope) (.scope scope')) (hosts : host.Uniform)
include uniform scopes hosts

theorem callStep {head head' : Expr} {arguments arguments' : List Expr} (heads : p.Like head head')
    (like : p.Like arguments arguments') :
    Alike p Pairing.Like (Engine.callStep ⟨calls, host⟩ scope head arguments)
      (Engine.callStep ⟨calls, host⟩ scope' head' arguments') := by
  have name : Engine.operatorName head' = Engine.operatorName head := by
    rw [heads.1, Engine.operatorName_smul]
  refine (uniform.evaluate scopes heads).bind fun q later operator operator' operators => ?_
  have called : Alike q Pairing.Like
      (if operator.isInvokable then do
        let values ← Engine.evaluateAll ⟨calls, host⟩ scope arguments
        calls.invoke operator values
      else Engine.refuse ⟨calls, host⟩ operator)
      (if operator'.isInvokable then do
        let values ← Engine.evaluateAll ⟨calls, host⟩ scope' arguments'
        calls.invoke operator' values
      else Engine.refuse ⟨calls, host⟩ operator') := by
    have invokable : operator'.isInvokable = operator.isInvokable := by
      rw [operators.1, Value.isInvokable_smul]
    rw [invokable]
    split
    · exact (uniform.evaluateAll (scopes.mono later) (like.mono later)).bind
        fun r more values values' held => uniform.invoke (operators.mono more) held
    · exact Engine.alike_refuse _ operators
  obtain ⟨rfl, covers⟩ := operators
  cases operator with
  | form form =>
    simp only [Value.smul_form, name]
    exact uniform.callForm (scopes.mono later) form _ (like.mono later)
  | operative function own stamp =>
    have wrapped : Covers q.domain function := covers.part fun _ _ same => (Value.operative.inj same).1
    have codes : q.Like (arguments.map Value.code) (arguments'.map Value.code) :=
      (like.mono later).map _ fun f arguments => by simp [smul_eq_map, Function.comp_def]
    have handed : q.Like
        [Value.scope scope, .text (Engine.operatorName head), .list (arguments.map .code)]
        [Value.scope scope', .text (Engine.operatorName head), .list (arguments'.map .code)] :=
      ((scopes.mono later).scope).cons (.cons (.of_fixed fun _ => rfl) (codes.list.cons .nil))
    simp only [Value.smul_operative, name]
    exact uniform.direct hosts function wrapped handed
  | _ => exact called

theorem evaluateStep {expr expr' : Expr} (like : p.Like expr expr') :
    Alike p Pairing.Like (Engine.evaluateStep ⟨calls, host⟩ scope expr)
      (Engine.evaluateStep ⟨calls, host⟩ scope' expr') := by
  obtain ⟨rfl, covers⟩ := like
  cases expr with
  | symbol name => exact alike_lookup scopes name
  | number raw known =>
    have given : p.Like known (p.names • known) :=
      ⟨rfl, covers.part fun _ _ same => (Expr.number.inj same).2⟩
    have numbers := given.map _ fun f known => Engine.literalNumber?_smul f raw known
    simp only [Expr.smul_number, Engine.evaluateStep]
    rw [numbers.1]
    cases read : Expr.literalNumber? raw known with
    | none => exact .fail _
    | some x =>
      rw [read] at numbers
      have held : p.Like x (p.names • x) := numbers.part fun _ _ => Option.some.inj
      exact .pure held.float
  | string raw => exact .pure (.of_fixed fun _ => rfl)
  | list items =>
    have held : p.Like items (p.names • items) := ⟨rfl, covers.part fun f g same => by simpa using same⟩
    cases items with
    | nil => exact .pure (.of_fixed fun _ => rfl)
    | cons head arguments =>
      obtain ⟨head', arguments', same, heads, rest⟩ := held.of_cons
      rw [Expr.smul_list, same]
      exact uniform.callStep scopes hosts heads rest
  | vector items =>
    have held : p.Like items (p.names • items) := ⟨rfl, covers.part fun f g same => by simpa using same⟩
    rw [Expr.smul_vector]
    exact (uniform.evaluateAll scopes held).bind fun _ _ _ _ like => .pure like.list
  | quote body => exact .pure (Pairing.Like.code ⟨rfl, covers.part fun _ _ => Expr.quote.inj⟩)
  | program forms =>
    have held : p.Like forms (p.names • forms) := ⟨rfl, covers.part fun f g same => by simpa using same⟩
    rw [Expr.smul_program]
    exact uniform.runBody scopes held
  | value held stamp => exact .pure ⟨rfl, covers.part fun _ _ same => (Expr.value.inj same).1⟩

end

include uniform in
theorem applyClosure (params : List String) {body body' : List Expr} (bodies : p.Like body body')
    {around around' : Option ScopeId} (scopes : p.Like (Name.around around) (Name.around around'))
    {arguments arguments' : List Value} (like : p.Like arguments arguments') :
    Alike p Pairing.Like (Engine.applyClosure ⟨calls, host⟩ params body around arguments)
      (Engine.applyClosure ⟨calls, host⟩ params body' around' arguments') := by
  have count : arguments'.length = arguments.length := by rw [like.1, length_smul]
  unfold Engine.applyClosure
  rw [count]
  split
  · refine (alike_child scopes).bind fun q later inner inner' made => ?_
    refine (Engine.alike_bindParams made params (like.mono later)).bind fun r more _ _ _ => ?_
    exact uniform.runBody (made.mono more) (bodies.mono (later.trans more))
  · exact .fail _

section

variable (hosts : host.Uniform)
include uniform hosts

theorem callAdapter {function function' : Value} (functions : p.Like function function') (window : Window)
    (name : String) {arguments arguments' : List Value} (like : p.Like arguments arguments') :
    Alike p Pairing.Like (Engine.callAdapter ⟨calls, host⟩ ⟨function, name, window⟩ arguments)
      (Engine.callAdapter ⟨calls, host⟩ ⟨function', name, window⟩ arguments') := by
  refine guard window name (fun q later arguments arguments' like => ?_) like
  have held := functions.mono later
  change Alike q _ (Engine.direct _ function arguments) (Engine.direct _ function' arguments')
  rw [held.1]
  exact uniform.direct hosts function held.2 like

theorem callAdapted {function function' : Value} (functions : p.Like function function')
    {arguments arguments' : List Value} (like : p.Like arguments arguments') :
    Alike p Pairing.Like (Engine.callAdapted ⟨calls, host⟩ function arguments)
      (Engine.callAdapted ⟨calls, host⟩ function' arguments') := by
  refine (Engine.alike_adapted functions host).bind fun q later adapter adapter' held => ?_
  have wrapped : q.Like adapter.function adapter'.function := held.map Adapter.function fun _ _ => rfl
  rw [held.1] at wrapped ⊢
  exact uniform.callAdapter hosts wrapped adapter.window adapter.name (like.mono later)

theorem apply {operator operator' : Value} (operators : p.Like operator operator')
    {arguments arguments' : List Value} (like : p.Like arguments arguments') :
    Alike p Pairing.Like (Engine.apply ⟨calls, host⟩ operator arguments)
      (Engine.apply ⟨calls, host⟩ operator' arguments') := by
  have refused := Engine.alike_refuse ⟨calls, host⟩ operators
  obtain ⟨rfl, covers⟩ := operators
  cases operator with
  | closure params body around stamp =>
    have bodies : p.Like body (p.names • body) :=
      ⟨rfl, covers.part fun f g same => by simp_all⟩
    have scopes : p.Like (Name.around around) (Name.around (around.map p.names.scope)) := by
      refine ⟨(Name.smul_around p.names around).symm, covers.part fun f g same => ?_⟩
      simp only [Value.smul_closure, Value.closure.injEq] at same
      rw [Name.smul_around, Name.smul_around, same.2.2.1]
    rw [Value.smul_closure]
    exact uniform.applyClosure params bodies scopes like
  | adapter function name window stamp =>
    have wrapped : p.Like function (p.names • function) :=
      ⟨rfl, covers.part fun _ _ same => (Value.adapter.inj same).1⟩
    exact uniform.callAdapter hosts wrapped window name like
  | native native => exact uniform.callAdapted hosts ⟨rfl, covers⟩ like
  | kind kind => exact uniform.callAdapted hosts ⟨rfl, covers⟩ like
  | form _ | operative _ _ _ => exact .fail _
  | _ => exact refused

end

end Calls.Uniform

theorem Engine.uniform_ofDepth {host : Host} (hosts : host.Uniform) (depth : Nat) :
    (Engine.ofDepth host depth).toCalls.Uniform := by
  induction depth with
  | zero => exact ⟨fun _ _ => .crash .recursion, fun _ _ => .crash .recursion⟩
  | succ depth ih =>
    constructor
    · intro p scope scope' expr expr' scopes like
      rw [Engine.evaluate_ofDepth, Engine.evaluate_ofDepth]
      exact ih.evaluateStep scopes hosts like
    · intro p operator operator' arguments arguments' operators like
      have applied := ih.apply hosts operators like
      have same : operator'.isInvokable = operator.isInvokable := by
        rw [operators.1, Value.isInvokable_smul]
      have callee : operator'.callee = operator.callee := by rw [operators.1, Value.callee_smul]
      cases invokable : operator.isInvokable with
      | true =>
        rw [Engine.invoke_invokable host depth invokable,
          Engine.invoke_invokable host depth (same.trans invokable), callee]
        exact applied.contain operator.callee
      | false =>
        rw [Engine.invoke_other host depth invokable,
          Engine.invoke_other host depth (same.trans invokable)]
        exact applied

end HostLisp
