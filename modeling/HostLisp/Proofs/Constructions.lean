import HostLisp.Proofs.Natives

/-!
Kinds that pay no attention to names. Called with alike arguments they make alike values: closures,
operators and adapters under names of their own, scopes inside alike ones, and code of alike code.
-/

namespace HostLisp

open Eval

namespace Value

variable (f : Renaming) (host : Host) (function : Value)

@[simp] theorem signature?_smul : (f • function).signature? host = function.signature? host := by
  cases function <;> rfl

@[simp] theorem window_smul : (f • function).window host = function.window host := by
  rw [window, signature?_smul, window]

@[simp] theorem signatureFault_smul : (f • function).signatureFault = function.signatureFault := by
  funext error
  cases error with
  | unresolvable crash => rfl
  | keywordRequired parameter =>
    exact congrArg (fun callee => Fault.failure (.keywordRequired callee parameter))
      (callee_smul f function)

theorem like_around {p : Pairing} {captured captured' : Value} (like : p.Like captured captured')
    {around : Option ScopeId} (held : captured.around? = some around) :
    ∃ around', captured'.around? = some around' ∧ p.Like (Name.around around) (Name.around around') := by
  obtain ⟨rfl, covers⟩ := like
  cases captured with
  | nil =>
    cases held
    exact ⟨none, rfl, .of_fixed fun _ => rfl⟩
  | scope id =>
    cases held
    exact ⟨_, rfl, Pairing.Like.around ⟨rfl, covers.of_scope⟩⟩
  | _ => cases held

end Value

instance : SMul Renaming Adapter := ⟨fun f adapter => { adapter with function := f • adapter.function }⟩

instance : SMul Renaming SignatureError := ⟨fun _ error => error⟩

theorem Adapter.of_smul (f : Renaming) (host : Host) (function : Value) :
    Adapter.of host (f • function) = f • Adapter.of host function := by
  unfold Adapter.of
  rw [Value.window_smul, Value.ownName?_smul, Value.kindOf_smul]
  cases function.window host <;> rfl

namespace Engine

variable {p : Pairing} {engine : Engine}

theorem alike_closure {scope scope' : Option ScopeId}
    (scopes : p.Like (Name.around scope) (Name.around scope')) (params : List String)
    {body body' : List Expr} (like : p.Like body body') :
    Alike p Pairing.Like (closure params body scope) (closure params body' scope') :=
  alike_stamp.bind fun _ later _ _ stamps =>
    .pure ((like.mono later).closure params (scopes.mono later) stamps)

variable {function function' : Value} (like : p.Like function function')
include like

theorem alike_operative (name : String) :
    Alike p Pairing.Like (operative function name) (operative function' name) := by
  have own : function'.ownName? = function.ownName? := by rw [like.1, Value.ownName?_smul]
  unfold operative
  rw [own]
  exact alike_stamp.bind fun q later a b stamps =>
    .pure ((like.mono later).wrapped (Value.operative · _ ·) (fun _ _ _ => rfl) stamps)

theorem alike_adapter (name : String) (window : Window) :
    Alike p Pairing.Like (adapter function name window) (adapter function' name window) :=
  alike_stamp.bind fun _ later _ _ stamps =>
    .pure ((like.mono later).wrapped (Value.adapter · name window ·) (fun _ _ _ => rfl) stamps)

theorem alike_lookOver : Alike p Pairing.Like (engine.lookOver function) (engine.lookOver function') := by
  refine .get fun q later left right between => ?_
  have same : function'.signatureFlaw? engine.room (right.scopes.look engine.room) =
      function.signatureFlaw? engine.room (left.scopes.look engine.room) := by
    have kinds : function'.kindOf = function.kindOf := by rw [like.1, Value.kindOf_smul]
    rw [Value.signatureFlaw?, kinds, between.pictured (like.mono later), Value.flaw?_smul,
      Value.signatureFlaw?]
  simp only [same]
  exact .unlessFlawed _ (.pure (.of_fixed fun _ => rfl))

theorem alike_adapted (host : Host) :
    Alike p Pairing.Like (Eval.ofExcept function.signatureFault (Adapter.of host function))
      (Eval.ofExcept function'.signatureFault (Adapter.of host function')) := by
  have faults : function'.signatureFault = function.signatureFault := by
    rw [like.1, Value.signatureFault_smul]
  rw [faults]
  exact .ofExcept (fun _ _ => rfl) (like.map (Adapter.of host)
    fun f function => Adapter.of_smul f host function)

theorem alike_adapt : Alike p Pairing.Like (engine.adapt function) (engine.adapt function') := by
  refine (alike_lookOver like).bind fun q later _ _ _ => ?_
  refine (alike_adapted (like.mono later) engine.host).bind fun r more adapted adapted' held => ?_
  have functions : r.Like adapted.function adapted'.function := held.map Adapter.function fun _ _ => rfl
  rw [held.1]
  exact alike_adapter (held.1 ▸ functions) _ _

theorem alike_adaptTo (types : List TypeExpr) :
    Alike p Pairing.Like (adaptTo function types) (adaptTo function' types) := by
  have own : function'.ownName? = function.ownName? := by rw [like.1, Value.ownName?_smul]
  have kinds : function'.kindOf = function.kindOf := by rw [like.1, Value.kindOf_smul]
  unfold adaptTo
  rw [own, kinds]
  exact alike_adapter like _ _

end Engine

namespace Kind

variable {p : Pairing}

theorem alike_visited {value value' : Value} (like : p.Like value value') :
    Alike p Pairing.Like (visited value) (visited value') := by
  have arrays : value'.isArray = value.isArray := by rw [like.1, Value.isArray_smul]
  unfold visited
  rw [arrays]
  refine (Native.alike_ofExcept (like.map _ Value.iterate_smul)).bind fun q later items items' held => ?_
  split
  · exact .mapM held fun r more a b => alike_fresh
  · exact .pure held

theorem expr?_smul (f : Renaming) (kind : Kind) (arguments : List Value) :
    kind.expr? (f • arguments) = f • kind.expr? arguments := by
  have collected : ∀ {make : List Expr → Expr}, (∀ items : List Expr, f • make items = make (f • items)) →
      ∀ items : List Value, make <$> (f • items).mapM Value.expr? =
        f • (make <$> items.mapM Value.expr?) := by
    intro make natural items
    rw [Option.mapM_smul f (Value.expr?_smul f)]
    cases items.mapM Value.expr? with
    | none => rfl
    | some exprs => exact congrArg some (natural exprs).symm
  fun_cases expr? kind arguments
  -- What is not of the form that a kind expects is not so under other names either.
  case case13 =>
    rw [expr?.eq_13]
    · rfl
    all_goals
      simp only [HostLisp.smul_eq_cons_iff, HostLisp.smul_eq_nil_iff, Value.smul_eq_nil_iff,
        Value.smul_eq_text_iff, Value.smul_eq_float_iff, Value.smul_eq_tuple_iff,
        Value.smul_eq_code_iff, forall_exists_index, and_imp]
      intros
      subst_vars
      solve_by_elim only [*, rfl]
  all_goals simp only [smul_cons, HostLisp.smul_nil, Value.smul_nil, Value.smul_text, Value.smul_float,
    Value.smul_tuple, Value.smul_code, expr?]
  case case8 items => exact collected (Expr.smul_list f) items
  case case10 items => exact collected (Expr.smul_vector f) items
  case case12 items => exact collected (Expr.smul_program f) items
  all_goals rfl

variable {calls : Calls} {host : Host} (uniform : calls.Uniform) (hosts : host.Uniform)
include uniform hosts

variable {arguments arguments' : List Value} (like : p.Like arguments arguments')
include like

theorem alike_other (kind : Kind) :
    Alike p Pairing.Like (kind.other ⟨calls, host⟩ arguments) (kind.other ⟨calls, host⟩ arguments') :=
  hosts.other uniform (.of_fixed fun _ => rfl) like

theorem alike_orOther {α : Type} (kind : Kind) {make make' : α → Eval Value} {parts? parts?' : Option α}
    (makes : Option.Rel (fun parts parts' => Alike p Pairing.Like (make parts) (make' parts')) parts?
      parts?') :
    Alike p Pairing.Like (kind.orOther ⟨calls, host⟩ arguments make parts?)
      (kind.orOther ⟨calls, host⟩ arguments' make' parts?') := by
  cases makes with
  | none => exact alike_other uniform hosts like kind
  | some alike => exact alike

theorem alike_makePlain (kind : Kind) :
    Alike p Pairing.Like (kind.makePlain ⟨calls, host⟩ arguments)
      (kind.makePlain ⟨calls, host⟩ arguments') := by
  obtain ⟨rfl, covers⟩ := like
  fun_cases makePlain ⟨calls, host⟩ kind arguments
  -- What is not of the form that a kind expects is not so under other names either.
  case case17 many | case18 few =>
    have other : kind.makePlain ⟨calls, host⟩ (p.names • arguments) =
        if kind.takesOne ∧ 1 < arguments.length then
          Eval.crash (.atMostOneArgument kind arguments.length)
        else kind.other ⟨calls, host⟩ (p.names • arguments) := by
      rw [makePlain.eq_17, HostLisp.length_smul]
      any_goals assumption
      all_goals
        simp only [HostLisp.smul_eq_cons_iff, HostLisp.smul_eq_nil_iff, Value.smul_eq_float_iff,
          forall_exists_index, and_imp]
        intros
        subst_vars
        solve_by_elim only [*, rfl]
    rw [other]
    first
      | rw [if_pos many]
        exact .crash _
      | rw [if_neg few]
        exact alike_other uniform hosts ⟨rfl, covers⟩ kind
  case case3 x unfit =>
    have held : p.Like x (p.names • x) := ⟨rfl, covers.head⟩
    rw [smul_cons, HostLisp.smul_nil, makePlain.eq_3 _ (p.names • x)]
    · exact (Native.alike_ofExcept (held.map _ Value.readFloat_smul)).bind fun q later y y' like =>
        alike_fresh like.float
    · simpa [Value.smul_eq_float_iff] using unfit
  case case13 unfit =>
    rw [makePlain.eq_13 _ (p.names • arguments)]
    · exact .crash _
    · simpa [HostLisp.smul_eq_nil_iff] using unfit
  all_goals simp only [smul_cons, HostLisp.smul_nil, Value.smul_float, makePlain]
  case case1 | case4 | case6 | case8 | case10 | case12 => exact .pure (.of_fixed fun _ => rfl)
  case case15 | case16 => exact .crash _
  case case2 x => exact .pure ⟨rfl, covers.head⟩
  case case5 x =>
    have held : p.Like x (p.names • x) := ⟨rfl, covers.head⟩
    refine .get fun q later left right between => ?_
    rw [between.pictured (held.mono later), Value.flaw?_smul, Value.display_smul]
    exact .unlessFlawed _ (.pure (.of_fixed fun _ => rfl))
  case case7 x =>
    rw [Value.truth_smul]
    exact Native.alike_ofExcept_fixed _ fun _ _ => rfl
  case case9 x =>
    exact (alike_visited ⟨rfl, covers.head⟩).bind fun q later items items' like => .pure like.list
  case case11 x =>
    exact (alike_visited ⟨rfl, covers.head⟩).bind fun q later items items' like => .pure like.tuple
  case case14 x =>
    rw [Value.kindOf_smul]
    exact .pure (.of_fixed fun _ => rfl)

theorem alike_makeExpr (kind : Kind) :
    Alike p Pairing.Like (kind.makeExpr ⟨calls, host⟩ arguments)
      (kind.makeExpr ⟨calls, host⟩ arguments') := by
  have exprs := like.map kind.expr? fun f arguments => expr?_smul f kind arguments
  by_cases single : kind = valueExpr ∧ arguments.length = 1
  · obtain ⟨rfl, single⟩ := single
    obtain ⟨held, rfl⟩ := List.length_eq_one_iff.mp single
    obtain ⟨held', _, rfl, head, rest⟩ := like.of_cons
    cases rest.of_nil
    exact alike_spliceStamp.bind fun q later stamp stamp' placed =>
      .pure ((head.mono later).spliced placed).code
  · have count : arguments'.length = arguments.length := by rw [like.1, HostLisp.length_smul]
    have unfit : ∀ held, kind = valueExpr → arguments = [held] → False :=
      fun held value same => single ⟨value, congrArg List.length same⟩
    have unfit' : ∀ held, kind = valueExpr → arguments' = [held] → False :=
      fun held value same => single ⟨value, count.symm.trans (congrArg List.length same)⟩
    rw [makeExpr.eq_2 _ _ _ unfit, makeExpr.eq_2 _ _ _ unfit']
    refine alike_orOther uniform hosts like kind ?_
    rw [exprs.1]
    cases made : kind.expr? arguments with
    | none => exact .none
    | some expr =>
      rw [made] at exprs
      have held : p.Like expr (p.names • expr) := exprs.part fun _ _ => Option.some.inj
      exact .some (.pure held.code)

theorem alike_makeOperative : Alike p Pairing.Like (makeOperative ⟨calls, host⟩ arguments)
    (makeOperative ⟨calls, host⟩ arguments') := by
  have others := alike_other uniform hosts like form
  obtain ⟨rfl, covers⟩ := like
  match arguments with
  | [] => exact others
  | _ :: second :: _ :: _ => cases second <;> exact others
  | [wrapped] => exact Engine.alike_operative ⟨rfl, covers.head⟩ ""
  | [wrapped, name] =>
    cases name with
    | nil => exact Engine.alike_operative ⟨rfl, covers.head⟩ ""
    | text name => exact Engine.alike_operative ⟨rfl, covers.head⟩ name
    | _ => exact others

theorem alike_makeClosure : Alike p Pairing.Like (makeClosure ⟨calls, host⟩ arguments)
    (makeClosure ⟨calls, host⟩ arguments') := by
  have others := alike_other uniform hosts like closure
  obtain ⟨rfl, covers⟩ := like
  match arguments with
  | [] | [_] | [_, _] | _ :: _ :: _ :: _ :: _ => exact others
  | [params, body, captured] =>
    have scopes : p.Like captured (p.names • captured) := ⟨rfl, covers.tail.tail.head⟩
    have bodies : p.Like (body.itemsOf? Value.expr?) ((p.names • body).itemsOf? Value.expr?) :=
      Pairing.Like.map ⟨rfl, covers.tail.head⟩ _ fun f body => body.itemsOf?_smul f (Value.expr?_smul f)
    simp only [smul_cons, HostLisp.smul_nil, makeClosure, Value.names?_smul] at others ⊢
    rw [bodies.1]
    cases params.names? with
    | none => exact others
    | some names =>
      cases made : body.itemsOf? Value.expr? with
      | none => exact others
      | some exprs =>
        rw [made] at bodies
        have held : p.Like exprs (p.names • exprs) := bodies.part fun _ _ => Option.some.inj
        cases found : captured.around? with
        | none =>
          rw [Value.around?_smul, found]
          exact others
        | some around =>
          obtain ⟨around', found', like⟩ := Value.like_around scopes found
          rw [found']
          exact Engine.alike_closure like names held

theorem alike_makeAdapter : Alike p Pairing.Like (makeAdapter ⟨calls, host⟩ arguments)
    (makeAdapter ⟨calls, host⟩ arguments') := by
  have others := alike_other uniform hosts like adapter
  obtain ⟨rfl, covers⟩ := like
  rcases arguments with _ | ⟨wrapped, _ | ⟨params, _ | ⟨_, _⟩⟩⟩
  · exact others
  · exact Engine.alike_adapt ⟨rfl, covers.head⟩
  · have typed : Alike p Pairing.Like
        (adapter.orOther ⟨calls, host⟩ [wrapped, params] (Engine.adaptTo wrapped)
          (params.itemsOf? Value.type?))
        (adapter.orOther ⟨calls, host⟩ (p.names • [wrapped, params]) (Engine.adaptTo (p.names • wrapped))
          ((p.names • params).itemsOf? Value.type?)) := by
      refine alike_orOther uniform hosts ⟨rfl, covers⟩ adapter ?_
      rw [params.itemsOf?_unnamed p.names (Value.type?_smul p.names)]
      cases params.itemsOf? Value.type? with
      | none => exact .none
      | some types => exact .some (Engine.alike_adaptTo ⟨rfl, covers.head⟩ types)
    cases params with
    | nil => exact Engine.alike_adapt ⟨rfl, covers.head⟩
    | _ => exact typed
  · cases params <;> exact others

theorem alike_makeScope : Alike p Pairing.Like (makeScope ⟨calls, host⟩ arguments)
    (makeScope ⟨calls, host⟩ arguments') := by
  have others := alike_other uniform hosts like scope
  have inside : ∀ {around around' : Option ScopeId}, p.Like (Name.around around) (Name.around around') →
      Alike p Pairing.Like (Value.scope <$> Eval.child around) (Value.scope <$> Eval.child around') := by
    intro around around' like
    rw [map_eq_pure_bind, map_eq_pure_bind]
    exact (alike_child like).bind fun q later inner inner' held => .pure held.scope
  obtain ⟨rfl, covers⟩ := like
  match arguments with
  | [] => exact inside (.of_fixed fun _ => rfl)
  | [outer] =>
    have scopes : p.Like outer (p.names • outer) := ⟨rfl, covers.head⟩
    refine alike_orOther uniform hosts ⟨rfl, covers⟩ scope ?_
    cases found : outer.around? with
    | none =>
      rw [Value.around?_smul, found]
      exact .none
    | some around =>
      obtain ⟨around', found', like⟩ := Value.like_around scopes found
      rw [found']
      exact .some (inside like)
  | _ :: _ :: _ => exact others

theorem alike_construct (kind : Kind) :
    Alike p Pairing.Like (kind.construct ⟨calls, host⟩ arguments)
      (kind.construct ⟨calls, host⟩ arguments') := by
  have exprs := alike_makeExpr uniform hosts like kind
  have plain := alike_makePlain uniform hosts like kind
  cases kind with
  | form => exact alike_makeOperative uniform hosts like
  | closure => exact alike_makeClosure uniform hosts like
  | adapter => exact alike_makeAdapter uniform hosts like
  | scope => exact alike_makeScope uniform hosts like
  | symbolExpr | numberExpr | stringExpr | listExpr | vectorExpr | quoteExpr | programExpr | valueExpr =>
    exact exprs
  | _ => exact plain

end Kind

end HostLisp
