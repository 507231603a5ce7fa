import HostLisp.Proofs.Handling

/-!
What calls come to. Kinds make their values of what they are given, adapters check and convert it, and
a form that is called as a function acts in the scope that it is handed. So every call, and every step
of the evaluator, handles its values; and it is code in the sense of all properties of runs.
-/

namespace HostLisp

open Value

theorem Kind.drawn_expr? {sort : Value → Prop} (rare : Rare sort) {given arguments : List Value}
    {kind : Kind} {expr : Expr} (made : kind.expr? arguments = some expr)
    (other : kind ≠ .numberExpr) (known : ∀ value ∈ arguments, Drawn sort given value) :
    Drawn sort given (.code expr) := by
  have listed {items : List Value} {exprs : List Expr} (taken : items.mapM Value.expr? = some exprs)
      (held : Drawn sort given (.tuple items)) : ∀ piece ∈ exprs.map Value.code, Drawn sort given piece :=
    fun piece among => held.piece (Value.eq_map_code_of_mapM taken ▸ among)
  unfold Kind.expr? at made
  split at made
  case h_3 | h_4 | h_5 => exact absurd rfl other
  case h_8 | h_10 | h_12 =>
    obtain ⟨exprs, taken, rfl⟩ := Option.map_eq_some_iff.mp made
    exact rare.drawn rfl (listed taken (known _ List.mem_cons_self))
  all_goals cases made
  all_goals first
    | exact rare.leaf rfl rfl
    | exact rare.drawn rfl known

theorem Value.near_of_around? {sort : Value → Prop} {place : Option ScopeId} {given : List Value}
    {outer : Value} {around : Option ScopeId} (held : Drawn sort given outer)
    (stands : outer.around? = some around) :
      ∀ scope, around = some scope → Near sort place given scope := by
  rintro scope rfl
  unfold around? at stands
  split at stands
  all_goals cases stands
  exact .inr ⟨_, held, rfl⟩

theorem Kind.number_of_expr? {arguments : List Value} {expr : Expr}
    (made : Kind.numberExpr.expr? arguments = some expr) :
    ∃ raw known others, arguments = .text raw :: others ∧ expr = .number raw known := by
  unfold Kind.expr? at made
  split at made
  case h_3 | h_4 | h_5 =>
    cases made
    exact ⟨_, _, _, rfl, rfl⟩
  all_goals contradiction

/-- A run that answers with a number literal of the text that comes first among its arguments. -/
def GivesLiteral (run : Calls → Eval Value) (arguments : List Value) : Prop :=
  ∃ raw known others, arguments = .text raw :: others ∧ run = fun _ => pure (.code (.number raw known))

theorem Value.isRead_signatureFault (function : Value) (error : SignatureError) :
    (function.signatureFault error).isRead = false := by
  cases error <;> rfl

theorem Window.isRead_of_checkArity {window : Window} {name : String} {count : Nat} {failure : Failure}
    (refused : window.checkArity name count = .error failure) :
    Fault.isRead (.failure failure) = false := by
  unfold checkArity at refused
  split at refused
  · cases refused
  · cases refused
    rfl

theorem Window.isRead_of_convertFrom (window : Window) {name : String} {index : Nat}
    {arguments : List Value} {fault : Fault}
    (failed : window.convertFrom name index arguments = .error fault) : fault.isRead = false := by
  induction arguments generalizing index with
  | nil => cases failed
  | cons value values ih =>
    unfold Window.convertFrom at failed
    split at failed
    · exact ih (Except.map_eq_error failed)
    · cases failed
      rfl
    · cases failed
      rfl

theorem Window.text_of_convertFrom {window : Window} {name : String} {index : Nat}
    {arguments others : List Value} {raw : String}
    (made : window.convertFrom name index arguments = .ok (.text raw :: others)) :
    ∃ others, arguments = .text raw :: others := by
  cases arguments with
  | nil => cases made
  | cons value values =>
    unfold Window.convertFrom at made
    split at made
    · next first found =>
      obtain ⟨_, -, same⟩ := Except.map_eq_ok made
      obtain ⟨rfl, -⟩ := List.cons.inj same
      have kept := (converts_of_convert _ found).eq_of_kindOf (by simp [kindOf])
      exact ⟨values, congrArg (· :: values) kept.symm⟩
    · cases made
    · cases made

namespace Value

variable {sort : Value → Prop} {given arguments : List Value}

theorem drawn_of_codeCall? {parts : ScopeId × String × List Expr}
    (read : codeCall? arguments = some parts)
    (known : ∀ value ∈ arguments, Drawn sort given value) :
    ∀ expr ∈ parts.2.2, Drawn sort given (.code expr) := by
  unfold codeCall? at read
  split at read
  · obtain ⟨exprs, taken, rfl⟩ := Option.map_eq_some_iff.mp read
    intro expr among
    simp only [List.forall_mem_cons] at known
    exact known.2.2.1.piece (eq_map_code_of_mapM taken ▸ List.mem_map_of_mem among)
  · cases read

theorem drawn_of_listed? (rare : Rare sort) {items : List Value} (read : listed? arguments = some items)
    (known : ∀ value ∈ arguments, Drawn sort given value) : ∀ item ∈ items, Drawn sort given item := by
  unfold listed? at read
  split at read
  · next place name exprs =>
    obtain ⟨listed, found, rfl⟩ := Option.map_eq_some_iff.mp read
    simp only [List.forall_mem_cons] at known ⊢
    exact ⟨known.1, known.2.1, rare.drawn rfl (drawn_items known.2.2.1 found), List.forall_mem_nil _⟩
  · cases read

theorem text_of_listed? {others : List Value} {raw : String}
    (read : listed? arguments = some (.text raw :: others)) :
    ∃ others, arguments = .text raw :: others := by
  unfold listed? at read
  split at read
  · obtain ⟨_, -, same⟩ := Option.map_eq_some_iff.mp read
    obtain ⟨rfl, -⟩ := List.cons.inj same
    exact ⟨_, rfl⟩
  · cases read

end Value

namespace Handles

variable {host : Host} {leeway : Leeway} {sort : Value → Prop} {deep may : Fault → Prop}
  {place : Option ScopeId} {scope : ScopeId} {given arguments : List Value}

section

variable (rare : Rare sort) (faithful : host.Faithful leeway sort deep)
  (known : ∀ value ∈ arguments, Drawn sort given value)
include rare faithful known

theorem other {operator : Value} (held : Drawn sort given operator) :
    Handles host leeway sort deep deep place given ([·]) fun calls =>
      Engine.other ⟨calls, host⟩ operator arguments :=
  ofServes rare (faithful.other operator arguments) (List.forall_mem_cons.mpr ⟨held, known⟩)

theorem otherKind (kind : Kind) :
    Handles host leeway sort deep deep place given ([·])
      fun calls => kind.other ⟨calls, host⟩ arguments :=
  other rare faithful known (rare.leaf rfl rfl)

theorem orOther {α : Type} (kind : Kind) {make : α → Eval Value} {parts? : Option α}
    (makes : ∀ parts, parts? = some parts →
      Handles host leeway sort deep deep place given ([·]) fun _ => make parts) :
    Handles host leeway sort deep deep place given ([·])
      fun calls => kind.orOther ⟨calls, host⟩ arguments make parts? := by
  cases parts? with
  | none => exact otherKind rare faithful known kind
  | some parts => exact makes parts rfl

theorem makePlain (usual : ∀ fault, fault.isRead = false → deep fault) (kind : Kind) :
    Handles host leeway sort deep deep place given ([·])
      fun calls => kind.makePlain ⟨calls, host⟩ arguments := by
  have leaf {value : Value} (common : value.isRare = false) (bare : value.pieces = []) :
      Handles host leeway sort deep deep place given ([·]) fun _ => pure value :=
      result (rare.leaf common bare)
  have listed (x : Value) (held : Drawn sort given x) (make : List Value → Value)
      (common : ∀ items, (make items).isRare = false) (pieces : ∀ items, (make items).pieces = items) :
      Handles host leeway sort deep deep place given ([·]) fun _ => do
        let items ← Kind.visited x
        return make items := by
    refine plain ((Kind.own_visited usual x).andThen fun _ => Eval.own_pure _) ?_
    refine (Kind.gives_visited rare held).andThen fun items each => Eval.gives_pure ?_
    exact rare.drawn (common items) fun piece among => each piece (pieces items ▸ among)
  have number (x : Value) : Handles host leeway sort deep deep place given ([·]) fun _ =>
      Native.ofExcept x.readFloat >>= fun result => Eval.fresh (.float result) := by
    refine plain ((Native.own_ofExcept usual _).andThen fun _ => Eval.own_fresh _) ?_
    exact (Eval.gives_anything _).andThen fun _ _ => Eval.gives_fresh rare (rare.leaf rfl rfl)
  have crash (cause : Crash) : Handles host leeway sort deep deep place given ([·]) fun _ =>
      (Eval.crash cause : Eval Value) := ends (Eval.own_crash (usual _ rfl)) (Eval.gives_crash cause)
  have otherwise : Handles host leeway sort deep deep place given ([·]) fun calls =>
      if kind.takesOne ∧ 1 < arguments.length then
        Eval.crash (.atMostOneArgument kind arguments.length)
      else kind.other ⟨calls, host⟩ arguments := by
    split
    · exact crash _
    · exact otherKind rare faithful known kind
  cases kind with
  | float =>
    match arguments with
    | [] => exact leaf rfl rfl
    | [x] =>
      cases x with
      | float x => exact leaf rfl rfl
      | _ => exact number _
    | x :: _ :: _ => cases x <;> exact otherwise
  | text =>
    match arguments with
    | [] => exact leaf rfl rfl
    | [x] => exact written rare (.text x)
    | _ :: _ :: _ => exact otherwise
  | bool =>
    match arguments with
    | [] => exact leaf rfl rfl
    | [x] =>
      refine plain ((Native.own_ofExcept usual _).andThen fun _ => Eval.own_pure _) ?_
      exact (Eval.gives_anything _).andThen fun _ _ => Eval.gives_pure (rare.leaf rfl rfl)
    | _ :: _ :: _ => exact otherwise
  | list =>
    match arguments with
    | [] => exact leaf rfl rfl
    | [x] => exact listed x (known x List.mem_cons_self) .list (fun _ => rfl) fun _ => rfl
    | _ :: _ :: _ => exact otherwise
  | tuple =>
    match arguments with
    | [] => exact leaf rfl rfl
    | [x] => exact listed x (known x List.mem_cons_self) .tuple (fun _ => rfl) fun _ => rfl
    | _ :: _ :: _ => exact otherwise
  | nil =>
    match arguments with
    | [] => exact leaf rfl rfl
    | _ :: _ => exact crash _
  | type =>
    match arguments with
    | [] | [_, _] => exact crash _
    | [x] => exact leaf rfl rfl
    | _ :: _ :: _ :: _ => exact otherwise
  | _ => exact otherwise

theorem makeOperative :
    Handles host leeway sort deep deep place given ([·]) fun calls =>
      Kind.makeOperative ⟨calls, host⟩ arguments := by
  have named (function : Value) (held : Drawn sort given function) (name : String) :
      Handles host leeway sort deep deep place given ([·]) fun _ => Engine.operative function name := by
    refine plain (Eval.own_stamp.andThen fun _ => Eval.own_pure _) ?_
    refine (Eval.gives_anything _).andThen fun _ _ => Eval.gives_pure ?_
    exact rare.drawn rfl (List.forall_mem_singleton.mpr held)
  have otherwise : Handles host leeway sort deep deep place given ([·]) fun calls =>
      Kind.form.other ⟨calls, host⟩ arguments := otherKind rare faithful known .form
  match arguments with
  | [] => exact otherwise
  | [function] => exact named function (known function List.mem_cons_self) ""
  | [function, name] =>
    have held := known function List.mem_cons_self
    cases name with
    | nil => exact named function held ""
    | text name => exact named function held name
    | _ => exact otherwise
  | _ :: name :: _ :: _ => cases name <;> exact otherwise

theorem makeClosure :
    Handles host leeway sort deep deep place given ([·])
      fun calls => Kind.makeClosure ⟨calls, host⟩ arguments := by
  have otherwise : Handles host leeway sort deep deep place given ([·]) fun calls =>
      Kind.closure.other ⟨calls, host⟩ arguments := otherKind rare faithful known .closure
  match arguments with
  | [] | [_] | [_, _] | _ :: _ :: _ :: _ :: _ => exact otherwise
  | [params, body, captured] =>
    simp only [Kind.makeClosure]
    cases params.names? with
    | none => exact otherwise
    | some names =>
      cases bodied : body.itemsOf? Value.expr? with
      | none => exact otherwise
      | some exprs =>
        cases around : captured.around? with
        | none => exact otherwise
        | some around =>
          refine .close (near_of_around? (known captured (by simp)) around) names fun expr among => ?_
          obtain ⟨items, listed, taken⟩ := Option.bind_eq_some_iff.mp bodied
          refine drawn_items (known body (by simp)) listed (.code expr) ?_
          exact eq_map_code_of_mapM taken ▸ List.mem_map_of_mem among

theorem makeAdapter (usual : ∀ fault, fault.isRead = false → deep fault) :
    Handles host leeway sort deep deep place given ([·])
      fun calls => Kind.makeAdapter ⟨calls, host⟩ arguments := by
  have adapted (function : Value) (held : Drawn sort given function) (name : String) (window : Window) :
      (Engine.adapter function name window).Gives (Drawn sort given) :=
    (Eval.gives_anything _).andThen fun _ _ =>
      Eval.gives_pure (rare.drawn rfl (List.forall_mem_singleton.mpr held))
  have own (function : Value) (name : String) (window : Window) :
      (Engine.adapter function name window).Own deep :=
    Eval.own_stamp.andThen fun _ => Eval.own_pure _
  have adapts (function : Value) (held : Drawn sort given function) :
      Handles host leeway sort deep deep place given ([·])
        fun calls => Engine.adapt ⟨calls, host⟩ function := by
    have made : (Eval.ofExcept function.signatureFault (Adapter.of host function)).Gives
        fun adapter => adapter.function = function :=
      Eval.gives_ofExcept fun _ made => Adapter.function_of made
    have gives := made.andThen fun adapter same =>
      adapted adapter.function (same ▸ held) adapter.name adapter.window
    have acts : (Eval.ofExcept function.signatureFault (Adapter.of host function) >>= fun adapter =>
        Engine.adapter adapter.function adapter.name adapter.window).Own deep :=
      (Eval.own_ofExcept fun error _ => usual _ (function.isRead_signatureFault error)).andThen
        fun _ => own _ _ _
    exact .andThen (written rare (.signature function)) fun _ =>
      plain acts fun state value ran => (gives state value ran).still
  have otherwise : Handles host leeway sort deep deep place given ([·]) fun calls =>
      Kind.adapter.other ⟨calls, host⟩ arguments := otherKind rare faithful known .adapter
  rcases arguments with _ | ⟨function, _ | ⟨types, _ | ⟨_, _⟩⟩⟩
  · exact otherwise
  · exact adapts function (known function List.mem_cons_self)
  · have held := known function List.mem_cons_self
    have typed : Handles host leeway sort deep deep place given ([·]) fun calls =>
        Kind.adapter.orOther ⟨calls, host⟩ [function, types] (Engine.adaptTo function)
          (types.itemsOf? Value.type?) :=
      orOther rare faithful known .adapter fun types _ => plain (own _ _ _) (adapted _ held _ _)
    cases types with
    | nil => exact adapts function held
    | _ => exact typed
  · cases types <;> exact otherwise

theorem makeScope :
    Handles host leeway sort deep deep place given ([·])
      fun calls => Kind.makeScope ⟨calls, host⟩ arguments := by
  have makes (around : Option ScopeId)
      (near : ∀ scope, around = some scope → Near sort place given scope) :
      Handles host leeway sort deep deep place given ([·]) fun _ =>
        Eval.child around >>= fun inner => pure (Value.scope inner) :=
    .block near fun inner => .hand (result (.of_mem List.mem_cons_self))
  have otherwise : Handles host leeway sort deep deep place given ([·]) fun calls =>
      Kind.scope.other ⟨calls, host⟩ arguments := otherKind rare faithful known .scope
  match arguments with
  | [] => exact makes none nofun
  | [outer] =>
    exact orOther rare faithful known .scope fun inside around =>
      makes inside (near_of_around? (known outer List.mem_cons_self) around)
  | _ :: _ :: _ => exact otherwise

theorem makeExpr (kind : Kind) :
    (Handles host leeway sort deep deep place given ([·])
        fun calls => kind.makeExpr ⟨calls, host⟩ arguments) ∨
      kind = .numberExpr ∧ GivesLiteral (fun calls => kind.makeExpr ⟨calls, host⟩ arguments)
        arguments := by
  have holds (held : Value) (drawn : Drawn sort given held) :
      Handles host leeway sort deep deep place given ([·])
      fun _ => Eval.spliceStamp >>= fun stamp => pure (Value.code (.value held stamp)) := by
    refine plain (Eval.own_spliceStamp.andThen fun _ => Eval.own_pure _) ?_
    exact (Eval.gives_anything _).andThen fun stamp _ => Eval.gives_pure (rare.held drawn stamp)
  have made : (Handles host leeway sort deep deep place given ([·]) fun calls =>
        kind.orOther ⟨calls, host⟩ arguments (fun expr => pure (Value.code expr)) (kind.expr? arguments)) ∨
      kind = .numberExpr ∧ GivesLiteral (fun calls =>
        kind.orOther ⟨calls, host⟩ arguments (fun expr => pure (Value.code expr)) (kind.expr? arguments))
          arguments := by
    by_cases number : kind = .numberExpr
    · subst number
      cases made : Kind.numberExpr.expr? arguments with
      | none => exact .inl (otherKind rare faithful known .numberExpr)
      | some expr =>
        obtain ⟨raw, known, others, same, rfl⟩ := Kind.number_of_expr? made
        exact .inr ⟨rfl, raw, known, others, same, rfl⟩
    · exact .inl (orOther rare faithful known kind fun expr made =>
        result (Kind.drawn_expr? rare made number known))
  cases kind with
  | valueExpr =>
    rcases arguments with _ | ⟨held, _ | ⟨_, _⟩⟩
    · exact made
    · exact .inl (holds held (known held List.mem_cons_self))
    · exact made
  | _ => exact made

theorem construct (usual : ∀ fault, fault.isRead = false → deep fault) (kind : Kind) :
    (Handles host leeway sort deep deep place given ([·])
        fun calls => kind.construct ⟨calls, host⟩ arguments) ∨
      kind = .numberExpr ∧ GivesLiteral (fun calls => kind.construct ⟨calls, host⟩ arguments)
        arguments := by
  have made : (Handles host leeway sort deep deep place given ([·]) fun calls =>
        if kind.isExpression then kind.makeExpr ⟨calls, host⟩ arguments
        else kind.makePlain ⟨calls, host⟩ arguments) ∨
      kind = .numberExpr ∧ GivesLiteral (fun calls =>
        if kind.isExpression then kind.makeExpr ⟨calls, host⟩ arguments
        else kind.makePlain ⟨calls, host⟩ arguments) arguments := by
    by_cases isExpression : kind.isExpression = true
    · simp only [if_pos isExpression]
      exact makeExpr rare faithful known kind
    · simp only [if_neg isExpression]
      exact .inl (makePlain rare faithful known usual kind)
  cases kind with
  | form => exact .inl (makeOperative rare faithful known)
  | closure => exact .inl (makeClosure rare faithful known)
  | adapter => exact .inl (makeAdapter rare faithful known usual)
  | scope => exact .inl (makeScope rare faithful known)
  | _ => exact made

end

section

variable (rare : Rare sort)
include rare

theorem guarded (usual : ∀ fault, fault.isRead = false → deep fault) {function : Value}
    (inside : ∀ {arguments : List Value}, (∀ value ∈ arguments, Drawn sort given value) →
      (Handles host leeway sort deep deep (function.handed? arguments) given ([·]) fun calls =>
        Engine.direct ⟨calls, host⟩ function arguments) ∨
      function.makesNumbers = true ∧
        GivesLiteral (fun calls => Engine.direct ⟨calls, host⟩ function arguments) arguments)
    (window : Window) (name : String) (known : ∀ value ∈ arguments, Drawn sort given value) :
    (Handles host leeway sort deep deep (function.handed? arguments) given ([·]) fun calls =>
        window.guard name (Engine.direct ⟨calls, host⟩ function) arguments) ∨
      function.makesNumbers = true ∧
        GivesLiteral (fun calls => window.guard name (Engine.direct ⟨calls, host⟩ function) arguments)
          arguments := by
  unfold Window.guard
  cases checked : window.checkArity name arguments.length with
  | error failure =>
    have other := window.isRead_of_checkArity checked
    exact .inl (ends (Eval.own_fail (usual _ other)) (Eval.gives_fail failure))
  | ok =>
    cases made : window.convertFrom name 0 arguments with
    | error fault =>
      have other := window.isRead_of_convertFrom made
      exact .inl (ends (Eval.own_throw (usual _ other)) nofun)
    | ok converted =>
      obtain handles | ⟨makes, raw, literal, others, same, spelled⟩ :=
        inside (window.drawn_convertFrom rare name known made)
      · refine .inl ?_
        obtain free | here := Value.handed?_of_convertFrom function made
        · exact handles.anywhere free
        · exact here ▸ handles
      · obtain ⟨others, same⟩ := Window.text_of_convertFrom (same ▸ made)
        exact .inr ⟨makes, raw, literal, others, same, spelled⟩

variable (faithful : host.Faithful leeway sort deep)
  (usual : ∀ fault, fault.isRead = false → deep fault)
include faithful usual

/-- A function that is called as functions call each other. The induction is on what it wraps. -/
theorem direct : ∀ (function : Value) {given arguments : List Value}, Drawn sort given function →
    (∀ value ∈ arguments, Drawn sort given value) →
    (Handles host leeway sort deep deep (function.handed? arguments) given ([·]) fun calls =>
      Engine.direct ⟨calls, host⟩ function arguments) ∨
    function.makesNumbers = true ∧
      GivesLiteral (fun calls => Engine.direct ⟨calls, host⟩ function arguments) arguments
  | .closure params body around stamp, _, _, held, known =>
    .inl (.invoke (List.forall_mem_cons.mpr ⟨held, known⟩))
  | .form _, _, arguments, held, known => by
    refine .inl ?_
    cases read : Value.codeCall? arguments with
    | none =>
      simp only [Engine.direct, read]
      exact other rare faithful known held
    | some parts =>
      simp only [Engine.direct, read]
      rw [Value.handed?_of_codeCall? read]
      exact callForm rare _ parts.2.1 (Value.drawn_of_codeCall? read known)
  | .operative function name stamp, _, arguments, held, known => by
    cases read : Value.listed? arguments with
    | none =>
      simp only [Engine.direct, read]
      exact .inl (other rare faithful known held)
    | some items =>
      simp only [Engine.direct, read]
      rw [Value.handed?_of_listed? function name stamp read]
      obtain handles | ⟨makes, raw, literal, others, same, spelled⟩ :=
        direct function (held.piece List.mem_cons_self) (Value.drawn_of_listed? rare read known)
      · exact .inl handles
      · obtain ⟨others, same⟩ := Value.text_of_listed? (same ▸ read)
        exact .inr ⟨makes, raw, literal, others, same, spelled⟩
  | .native function, _, arguments, _, known =>
    .inl (ofServes rare (faithful.run function arguments) known)
  | .adapter function name window stamp, _, _, held, known =>
    guarded rare usual (fun known => direct function (held.piece List.mem_cons_self) known) window name
      known
  | .kind made, _, _, _, known => (construct rare faithful known usual made).imp_right fun spells =>
    ⟨decide_eq_true spells.1, spells.2⟩
  | .nil, _, _, _, _ | .bool _, _, _, _, _ | .float _, _, _, _, _ | .int _, _, _, _, _
  | .complex _ _, _, _, _, _ | .text _, _, _, _, _ | .list _, _, _, _, _ | .tuple _, _, _, _, _
  | .dict, _, _, _, _ | .machineBool _, _, _, _, _ | .machineInt _ _, _, _, _, _
  | .machineFloat _ _, _, _, _, _ | .array _ _ _ _, _, _, _, _ | .code _, _, _, _, _
  | .scope _, _, _, _, _ | .picture _ _ _, _, _, _, _ =>
    .inl (ends (Eval.own_crash (usual _ rfl)) (Eval.gives_crash _))

theorem callFunction {function : Value} (held : Drawn sort given function) (name : String)
    {exprs : List Expr} (known : ∀ expr ∈ exprs, Drawn sort given (.code expr)) :
    Handles host leeway sort deep may (some scope) given ([·]) fun calls =>
      Engine.direct ⟨calls, host⟩ function [.scope scope, .text name, .list (exprs.map .code)] := by
  have later {value : Value} (drawn : Drawn sort given value) :
      Drawn sort (.scope scope :: given) value :=
    drawn.weaken (List.subset_cons_self _ _)
  have handed : ∀ value ∈ [Value.scope scope, .text name, .list (exprs.map .code)],
      Drawn sort (.scope scope :: given) value := by
    simp only [List.forall_mem_cons]
    refine ⟨.of_mem List.mem_cons_self, rare.leaf rfl rfl, ?_, List.forall_mem_nil _⟩
    exact rare.drawn rfl (List.forall_mem_map.mpr fun expr among => later (known expr among))
  have inside := direct rare faithful usual function (later held) handed
  refine .hand (.expand ?_)
  obtain handles | ⟨-, _, _, _, same, -⟩ := inside
  · cases wraps : function.wrapsForm with
    | true =>
      have here (others : List Value) : function.handed? (.scope scope :: others) = some scope :=
          if_pos wraps
      exact here _ ▸ handles
    | false => exact handles.anywhere (Value.handed?_of_wrapsForm wraps _)
  · cases same

theorem callStep {head : Expr} {arguments : List Expr}
    (known : ∀ expr ∈ head :: arguments, Drawn sort given (.code expr)) :
    Handles host leeway sort deep may (some scope) given ([·]) fun calls =>
      Engine.callStep ⟨calls, host⟩ scope head arguments := by
  obtain ⟨first, others⟩ := List.forall_mem_cons.mp known
  refine .andThen (.evaluate first) fun operator => ?_
  have held : Drawn sort ([operator] ++ given) operator := .of_mem List.mem_cons_self
  have later : ∀ expr ∈ arguments, Drawn sort ([operator] ++ given) (.code expr) :=
    fun expr among => (others expr among).still
  cases operator with
  | form form => exact callForm rare form (Engine.operatorName head) later
  | operative function name stamp =>
    exact callFunction rare faithful usual (held.piece List.mem_cons_self) _ later
  | _ => exact callOperator rare held later

theorem evaluateStep {expr : Expr}
    (mild : ∀ failure, Fault.isRead (.failure failure) = false → may (.failure failure))
    (spelled : ∀ raw number, expr = .number raw number → Expr.literalNumber? raw number = none →
      may (.failure (.read ⟨.invalidNumber raw, none⟩)))
    (known : Drawn sort given (.code expr)) :
    Handles host leeway sort deep may (some scope) given ([·]) fun calls =>
      Engine.evaluateStep ⟨calls, host⟩ scope expr := by
  have items : ∀ {items : List Expr}, (∀ item ∈ items, .code item ∈ expr.pieces) →
      ∀ item ∈ items, Drawn sort given (.code item) :=
    fun among item inside => known.piece (among item inside)
  cases expr with
  | symbol name => exact .lookup (mild _ rfl)
  | number raw value =>
    simp only [Engine.evaluateStep]
    cases read : Expr.literalNumber? raw value with
    | none => exact ends (Eval.own_fail (spelled raw value rfl read)) (Eval.gives_fail _)
    | some x => exact result (rare.leaf rfl rfl)
  | string raw => exact result (rare.leaf rfl rfl)
  | list exprs =>
    cases exprs with
    | nil => exact result (rare.leaf rfl rfl)
    | cons head arguments =>
      exact callStep rare faithful usual (items fun _ among => List.mem_map_of_mem among)
  | vector exprs =>
    refine .andThen (evaluateAll (items fun _ among => List.mem_map_of_mem among)) fun values => ?_
    exact result (rare.drawn rfl fun value among => .of_mem (List.mem_append_left _ among))
  | quote body => exact result (known.piece List.mem_cons_self)
  | program forms => exact runBody rare (items fun _ among => List.mem_map_of_mem among)
  | value held stamp => exact result (known.piece List.mem_cons_self)

theorem callAdapted {function : Value} (other : function.wrapsForm = false)
    (held : Drawn sort given function) (known : ∀ value ∈ arguments, Drawn sort given value) :
    (Handles host leeway sort deep deep place given ([·]) fun calls =>
      Engine.callAdapted ⟨calls, host⟩ function arguments) ∨
    function.makesNumbers = true ∧
      GivesLiteral (fun calls => Engine.callAdapted ⟨calls, host⟩ function arguments) arguments := by
  have called : (fun calls => Engine.callAdapted ⟨calls, host⟩ function arguments) = fun calls =>
    Eval.ofExcept function.signatureFault (Adapter.of host function) >>= fun adapter =>
      Engine.callAdapter ⟨calls, host⟩ adapter arguments := rfl
  rw [called]
  cases made : Adapter.of host function with
  | error error =>
    have other := function.isRead_signatureFault error
    exact .inl (ends (Eval.own_throw (usual _ other)) nofun)
  | ok adapter =>
    have same : adapter.function = function := Adapter.function_of made
    subst same
    have inside := guarded rare usual (fun known => direct rare faithful usual adapter.function
      held known)
      adapter.window adapter.name known
    exact inside.imp_left fun handles => handles.anywhere (Value.handed?_of_wrapsForm other _)

theorem apply {operator : Value} (known : ∀ value ∈ operator :: arguments, Drawn sort given value) :
    (Handles host leeway sort deep deep (operator.handed? arguments) given ([·]) fun calls =>
      Engine.apply ⟨calls, host⟩ operator arguments) ∨
    operator.makesNumbers = true ∧
      GivesLiteral (fun calls => Engine.apply ⟨calls, host⟩ operator arguments) arguments := by
  obtain ⟨called, passed⟩ := List.forall_mem_cons.mp known
  cases operator with
  | closure params body around stamp => exact .inl (applyClosure rare usual called passed)
  | adapter function name window stamp =>
    exact guarded rare usual (fun known => direct rare faithful usual function
      (called.piece List.mem_cons_self) known)
      window name passed
  | native native => exact callAdapted rare faithful usual rfl called passed
  | kind kind => exact callAdapted rare faithful usual rfl called passed
  | form _ | operative _ _ _ => exact .inl (ends (Eval.own_fail (usual _ rfl)) (Eval.gives_fail _))
  | _ => exact .inl (written rare (.refused _))

omit faithful usual in
theorem applyOther {operator : Value} (other : operator.isInvokable = false)
    (mild : ∀ failure, Fault.isRead (.failure failure) = false → may (.failure failure))
    (arguments : List Value) :
    Handles host leeway sort deep may none given ([·]) fun calls =>
      Engine.apply ⟨calls, host⟩ operator arguments := by
  cases operator with
  | closure _ _ _ _ | adapter _ _ _ _ | native _ | kind _ => cases other
  | form _ | operative _ _ _ => exact ends (Eval.own_fail (mild _ rfl)) (Eval.gives_fail _)
  | _ => exact written rare (.refused _)

/-- If number literals are not of the sort, what is applied hands nothing else on. -/
theorem apply_of_common {operator : Value} (common : ∀ raw known, ¬sort (.code (.number raw known)))
    (known : ∀ value ∈ operator :: arguments, Drawn sort given value) :
    Handles host leeway sort deep deep (operator.handed? arguments) given ([·]) fun calls =>
      Engine.apply ⟨calls, host⟩ operator arguments := by
  obtain handles | ⟨-, raw, literal, _, _, spelled⟩ := apply rare faithful usual known
  · exact handles
  · rw [spelled]
    exact result (.of_pieces (common raw literal) (List.forall_mem_nil _))

end

end Handles

/-! ### Code of all hosts -/

section

variable {host : Host} {leeway : Leeway} {deep : Fault → Prop} {given : List Value}

theorem Value.drawn_nothing (value : Value) : Drawn (fun _ => False) given value :=
  fun _ _ => False.elim

theorem Serves.forget {α : Type} {found : α → List Value} {run : Calls → Eval α}
    (serves : Serves host leeway (fun _ => False) deep given found run) (other : α → List Value) :
    Serves host leeway (fun _ => False) deep given other run := by
  have same : run = fun calls => run calls >>= fun result => pure result := by
    funext calls
    exact (bind_pure (run calls)).symm
  rw [same]
  exact .andThen serves fun result =>
    .own (Eval.own_pure result) fun _ _ _ value _ => value.drawn_nothing

theorem Outside.serves {α : Type} {run : Calls → Eval α} (outside : Outside host leeway run)
    (found : α → List Value) : Serves host leeway (fun _ => False) (fun _ => True) given found run := by
  induction outside generalizing given with
  | own acts => exact .own acts fun _ _ _ value _ => value.drawn_nothing
  | write writes => exact Serves.forget (.write writes) found
  | call operator arguments => exact Serves.forget (.call fun value _ => value.drawn_nothing) found
  | evaluate allowed scope expr =>
    have near : Near (fun _ => False) none given scope := .inr ⟨.scope scope, drawn_nothing _, rfl⟩
    exact Serves.forget (.evaluate allowed near (drawn_nothing _)) found
  | andThen _ _ first rest => exact .andThen (first fun _ => []) fun result => rest result found
  | recover allowed _ _ tries goesOn =>
    exact .recover allowed (tries found) fun fault => goesOn fault found

theorem Host.Abides.faithful (abides : host.Abides leeway) :
    host.Faithful leeway (fun _ => False) fun _ => True :=
  ⟨fun native arguments => (abides.run native arguments).serves _,
    fun operator arguments => (abides.other operator arguments).serves _⟩

theorem rare_nothing : Rare fun _ => False := fun _ => False.elim

theorem Native.outside_run (native : Native) (arguments : List Value) :
    Outside host leeway fun calls => Native.run calls native arguments :=
  have serves : Serves host leeway _ (fun _ => True) _ _ _ :=
    serves_run rare_nothing (fun _ _ => trivial) native arguments
  serves.outside

theorem Native.abides_catalogue : Host.catalogue.Abides leeway :=
  ⟨outside_run, fun _ _ => .own (Eval.own_crash trivial)⟩

namespace Code

variable {may : Fault → Prop} {scope : ScopeId}

theorem ofHandles {α : Type} {found : α → List Value} {run : Calls → Eval α} {place : Option ScopeId}
    (handles : Handles host leeway (fun _ => False) (fun _ => True) may place [] found run) :
    Code host leeway may place run := handles.code

theorem runBody (body : List Expr) :
    Code host leeway may (some scope) fun calls => Engine.runBody ⟨calls, host⟩ scope body :=
  .ofHandles (.runBody rare_nothing fun _ _ => drawn_nothing _)

theorem evaluateAll (exprs : List Expr) :
    Code host leeway may (some scope) fun calls => Engine.evaluateAll ⟨calls, host⟩ scope exprs :=
  .ofHandles (.evaluateAll fun _ _ => drawn_nothing _)

theorem thread (splice : Splice) (value : Value) (steps : List Step) :
    Code host leeway may (some scope) fun calls => Engine.thread ⟨calls, host⟩ scope splice value steps :=
  .ofHandles (.thread rare_nothing splice (drawn_nothing _) fun _ _ _ _ => drawn_nothing _)

theorem bindParams (params : List String) (arguments : List Value) :
    Code host leeway may (some scope) fun _ => Engine.bindParams scope params arguments :=
  .ofHandles (.bindParams params fun _ _ => drawn_nothing _)

section

variable (abides : host.Abides leeway)
include abides

theorem evaluateStep (fails : ∀ failure, may (.failure failure)) (expr : Expr) :
    Code host leeway may (some scope) fun calls => Engine.evaluateStep ⟨calls, host⟩ scope expr :=
  .ofHandles (.evaluateStep rare_nothing abides.faithful (fun _ _ => trivial)
    (fun failure _ => fails failure) (fun _ _ _ _ => fails _) (drawn_nothing _))

theorem apply (operator : Value) (arguments : List Value) :
    Code host leeway (fun _ => True) (operator.handed? arguments) fun calls =>
      Engine.apply ⟨calls, host⟩ operator arguments :=
  .ofHandles (.apply_of_common rare_nothing abides.faithful (fun _ _ => trivial) (fun _ _ => id)
    fun _ _ => drawn_nothing _)

end

theorem applyOther {operator : Value} (other : operator.isInvokable = false)
    (fails : ∀ failure, may (.failure failure)) (arguments : List Value) :
    Code host leeway may none fun calls => Engine.apply ⟨calls, host⟩ operator arguments :=
  .ofHandles (.applyOther rare_nothing other (fun failure _ => fails failure) arguments)

end Code

end

end HostLisp
