import HostLisp.Proofs.Alike

/-!
Host functions that pay no attention to names. Given alike arguments, and a way to invoke values
that keeps likeness, they do alike things. The functions of the catalogue and the constructions of
values are of this sort.
-/

namespace HostLisp

open Eval

/-- Calls that do alike things with alike expressions and values. -/
structure Calls.Uniform (calls : Calls) : Prop where
  evaluate : ∀ {p : Pairing} {scope scope' : ScopeId} {expr expr' : Expr},
    p.Like (Name.scope scope) (.scope scope') → p.Like expr expr' →
    Alike p Pairing.Like (calls.evaluate scope expr) (calls.evaluate scope' expr')
  invoke : ∀ {p : Pairing} {operator operator' : Value} {arguments arguments' : List Value},
    p.Like operator operator' → p.Like arguments arguments' →
    Alike p Pairing.Like (calls.invoke operator arguments) (calls.invoke operator' arguments')

/-- Hosts whose functions do alike things with alike arguments. -/
structure Host.Uniform (host : Host) : Prop where
  run : ∀ {calls : Calls}, calls.Uniform →
    ∀ {p : Pairing} (native : Native) {arguments arguments' : List Value}, p.Like arguments arguments' →
      Alike p Pairing.Like (host.run calls native arguments) (host.run calls native arguments')
  other : ∀ {calls : Calls}, calls.Uniform →
    ∀ {p : Pairing} {operator operator' : Value} {arguments arguments' : List Value},
      p.Like operator operator' → p.Like arguments arguments' →
      Alike p Pairing.Like (host.other calls operator arguments) (host.other calls operator' arguments')

/-! ### The functions of the catalogue -/

namespace Native

variable {p : Pairing}

theorem alike_ofExcept {α : Type} [SMul Renaming α] {result result' : Except Crash α}
    (like : p.Like result result') : Alike p Pairing.Like (ofExcept result) (ofExcept result') :=
  .ofExcept (fun _ _ => rfl) like

theorem alike_ofExcept_same {α : Type} (result : Except Crash α) :
    Alike p (fun _ a b => a = b) (ofExcept result) (ofExcept result) := by
  cases result with
  | ok value => exact .of_results (fun _ => rfl) (fun _ => rfl) fun _ _ => .ok rfl
  | error cause => exact .crash cause

theorem alike_ofExcept_fixed {α : Type} (result : Except Crash α) {make : α → Value}
    (fixed : ∀ (f : Renaming) a, f • make a = make a) :
    Alike p Pairing.Like (ofExcept result >>= fun a => pure (make a))
      (ofExcept result >>= fun a => pure (make a)) := by
  refine (alike_ofExcept_same result).bind fun q later a b same => ?_
  subst same
  exact .pure (.of_fixed fun f => fixed f a)

theorem alike_operation {operation : Floating → Floating → Floating}
    (natural : ∀ (f : Renaming) a b, operation (f • a) (f • b) = f • operation a b) {a b : Floating}
    (covers : Covers p.domain [Value.float a, .float b]) :
    Alike p Pairing.Like (fresh (.float (operation a b)))
      (fresh (.float (operation (p.names • a) (p.names • b)))) := by
  have first : p.Like a (p.names • a) := ⟨rfl, covers.head.of_float⟩
  have second : p.Like b (p.names • b) := ⟨rfl, covers.tail.head.of_float⟩
  exact alike_fresh (first.map₂ second operation natural).float

theorem clamped_smul (f : Renaming) (x lo hi : Floating) :
    clamped (f • x) (f • lo) (f • hi) = f • clamped x lo hi := by
  simp only [clamped, Floating.lt_smul_smul]
  split_ifs <;> rfl

theorem like_clamped {x x' lo lo' hi hi' : Floating} (value : p.Like x x') (lower : p.Like lo lo')
    (upper : p.Like hi hi') : p.Like (clamped x lo hi) (clamped x' lo' hi') := by
  refine ⟨?_, fun f g agree => ?_⟩
  · rw [value.1, lower.1, upper.1, clamped_smul]
  · rw [← clamped_smul, ← clamped_smul, value.2 f g agree, lower.2 f g agree, upper.2 f g agree]

theorem foldl_smul {α : Type} [SMul Renaming α] {step : α → Value → α}
    (natural : ∀ (f : Renaming) held value, step (f • held) (f • value) = f • step held value)
    (f : Renaming) (values : List Value) (held : α) :
    (f • values).foldl step (f • held) = f • values.foldl step held := by
  induction values generalizing held with
  | nil => rfl
  | cons value values ih => rw [smul_cons, List.foldl_cons, natural, ih, List.foldl_cons]

theorem foldl_unnamed {α : Type} {step : α → Value → α}
    (natural : ∀ (f : Renaming) held value, step held (f • value) = step held value) (f : Renaming)
    (values : List Value) (held : α) : (f • values).foldl step held = values.foldl step held := by
  rw [smul_eq_map, List.foldl_map]
  simp only [natural]

theorem alike_compute (native : Native) {arguments : List Value} (covers : Covers p.domain arguments) :
    Alike p Pairing.Like (native.compute arguments) (native.compute (p.names • arguments)) := by
  fun_cases compute native arguments
  -- What is not of the form that a function expects is not so under other names either.
  case case43 =>
    rw [compute.eq_42]
    · exact .crash _
    any_goals assumption
    all_goals
      simp only [HostLisp.smul_eq_cons_iff, HostLisp.smul_eq_nil_iff, Value.smul_eq_bool_iff,
        Value.smul_eq_int_iff, Value.smul_eq_machineInt_iff, Value.smul_eq_text_iff,
        Value.smul_eq_float_iff, Value.smul_eq_list_iff, Value.smul_eq_tuple_iff,
        Value.smul_eq_array_iff, forall_exists_index, and_imp]
      intros
      subst_vars
      solve_by_elim only [*, rfl]
  case case15 unfit =>
    rw [compute.eq_14 (p.names • arguments)]
    · exact .pure (.of_fixed fun _ => rfl)
    · simpa [HostLisp.smul_eq_cons_iff, HostLisp.smul_eq_nil_iff, Value.smul_eq_text_iff] using unfit
  case case21 unfit =>
    rw [compute.eq_20 (p.names • arguments)]
    · exact .pure (Pairing.Like.list ⟨rfl, covers⟩)
    · simpa [HostLisp.smul_eq_cons_iff, HostLisp.smul_eq_nil_iff] using unfit
  case case37 unfit =>
    have held : p.Like arguments (p.names • arguments) := ⟨rfl, covers⟩
    rw [compute.eq_36 (p.names • arguments)]
    · exact alike_ofExcept (held.map _ Value.greatest_smul)
    · simpa [HostLisp.smul_eq_cons_iff, HostLisp.smul_eq_nil_iff] using unfit
  all_goals simp only [smul_cons, HostLisp.smul_nil, Value.smul_bool, Value.smul_int,
    Value.smul_machineInt, Value.smul_text, Value.smul_float, Value.smul_list, Value.smul_tuple,
    Value.smul_array, compute]
  -- What is given back without names.
  case case3 | case9 | case10 | case14 | case16 | case33 | case34 =>
    exact .pure (.of_fixed fun _ => rfl)
  case case31 => exact .pure (.of_fixed fun f => by simp)
  case case7 a b =>
    rw [Floating.lt_smul_smul]
    exact .pure (.of_fixed fun _ => rfl)
  case case11 items =>
    rw [foldl_unnamed fun f held value => by cases value <;> rfl]
    exact .pure (.of_fixed fun _ => rfl)
  case case12 s x =>
    rw [Floating.text_smul]
    exact .pure (.of_fixed fun _ => rfl)
  case case13 element sizes items stamp =>
    refine .pure (.of_fixed fun f => ?_)
    simp [smul_eq_map]
  case case40 x =>
    rw [Value.kindOf_smul]
    exact .pure (.of_fixed fun _ => rfl)
  case case22 => exact .crash _
  case case23 message => exact .fail _
  case case35 =>
    rw [Value.join_smul]
    exact alike_ofExcept_fixed _ fun _ _ => rfl
  case case38 x =>
    rw [Value.length_smul]
    exact alike_ofExcept_fixed _ fun _ _ => rfl
  case case39 => exact alike_cancel.bind fun q later _ _ _ => .pure (.of_fixed fun _ => rfl)
  -- What is given back as it is.
  case case24 x | case27 x | case29 x => exact .pure ⟨rfl, covers.head⟩
  case case25 | case42 => exact .pure (Pairing.Like.list ⟨rfl, covers⟩)
  case case26 => exact .pure (Pairing.Like.tuple ⟨rfl, covers⟩)
  case case28 x => exact alike_fresh ⟨rfl, covers.head⟩
  case case30 x =>
    have held : p.Like x (p.names • x) := ⟨rfl, covers.head⟩
    exact (alike_record _ _).bind fun q later _ _ _ => .pure (held.mono later)
  case case20 x =>
    have half : p.Like [Value.float (.finite (Dyadic.ofIntWithPrec 3 1))]
        [Value.float (.finite (Dyadic.ofIntWithPrec 3 1))] := .of_fixed fun _ => rfl
    exact .pure (Pairing.Like.cons ⟨rfl, covers.head⟩ half).list
  case case41 x =>
    have one : p.Like (Value.float (.finite 1)) (.float (.finite 1)) := .of_fixed fun _ => rfl
    exact .pure (one.cons ⟨rfl, covers⟩).list
  -- Arithmetic.
  case case1 a b => exact alike_operation Floating.add_smul_smul covers
  case case2 a b => exact alike_operation Floating.sub_smul_smul covers
  case case4 x factors =>
    have first : p.Like x (p.names • x) := ⟨rfl, covers.head.of_float⟩
    have rest : p.Like factors (p.names • factors) := ⟨rfl, covers.tail⟩
    refine alike_fresh (first.map₂ rest (fun x factors => factors.foldl _ x) ?_).float
    intro f x factors
    exact foldl_smul (fun f held value => by cases value <;> simp) f factors x
  case case5 a b zero =>
    rw [Floating.isZero_smul, if_pos zero]
    exact .crash _
  case case6 a b zero =>
    rw [Floating.isZero_smul, if_neg zero]
    exact alike_operation Floating.div_smul_smul covers
  case case32 x =>
    have held : p.Like x (p.names • x) := ⟨rfl, covers.head.of_float⟩
    exact alike_fresh (held.map₂ (.of_fixed fun _ => rfl) _ Floating.div_smul_smul).float
  case case17 x =>
    have held : p.Like x (p.names • x) := ⟨rfl, covers.head.of_float⟩
    exact .pure (like_clamped held (.of_fixed fun _ => rfl) (.of_fixed fun _ => rfl)).float
  case case18 x lo =>
    have held : p.Like x (p.names • x) := ⟨rfl, covers.head.of_float⟩
    have lower : p.Like lo (p.names • lo) := ⟨rfl, covers.tail.head.of_float⟩
    exact .pure (like_clamped held lower (.of_fixed fun _ => rfl)).float
  case case19 x lo hi =>
    have held : p.Like x (p.names • x) := ⟨rfl, covers.head.of_float⟩
    have lower : p.Like lo (p.names • lo) := ⟨rfl, covers.tail.head.of_float⟩
    have upper : p.Like hi (p.names • hi) := ⟨rfl, covers.tail.tail.head.of_float⟩
    exact .pure (like_clamped held lower upper).float
  case case8 a b =>
    have first : p.Like a (p.names • a) := ⟨rfl, covers.head⟩
    have second : p.Like b (p.names • b) := ⟨rfl, covers.tail.head⟩
    have results := first.map₂ second _ Value.equality_smul_smul
    exact (alike_ofExcept results).bind fun q later x y like => alike_fresh like
  case case36 x =>
    have held : p.Like [x] [p.names • x] := ⟨rfl, covers⟩
    rw [Value.isArray_smul]
    refine (alike_ofExcept (held.map _ Value.greatest_smul)).bind fun q later best best' like => ?_
    split
    · exact alike_fresh like
    · exact .pure like

theorem alike_shownCall (room : Nat) (name : String) {exprs exprs' : List Value}
    (like : p.Like exprs exprs') :
    Alike p Pairing.Like (shownCall room name exprs) (shownCall room name exprs') := by
  refine .get fun q later left right between => ?_
  have shown : exprs'.map (Value.pictured (right.scopes.look room) false) =
      q.names • exprs.map (Value.pictured (left.scopes.look room) false) :=
    Pairing.Between.map_like (fun like => between.pictured like room false) (like.mono later)
  simp only [shown, Value.flawAmong?_smul]
  refine .unlessFlawed _ (.pure ?_)
  have texts : (q.names • exprs.map (Value.pictured (left.scopes.look room) false)).map
        (fun expr => Value.text expr.display) =
      (exprs.map (Value.pictured (left.scopes.look room) false)).map fun expr => .text expr.display := by
    rw [smul_eq_map, List.map_map]
    simp only [Function.comp_def, Value.display_smul]
  rw [texts]
  exact .of_fixed fun f => by simp [smul_eq_map]

theorem uniform_run : Host.Uniform Host.catalogue := by
  refine ⟨fun {calls} uniform p native arguments arguments' like => ?_,
    fun {calls} _ p operator operator' _ _ like _ => ?_⟩
  · obtain ⟨rfl, covers⟩ := like
    change Alike p Pairing.Like (run calls native arguments) (run calls native (p.names • arguments))
    fun_cases run calls native arguments
    case case5 =>
      rw [run.eq_5]
      · exact alike_compute native covers
      all_goals
        simp only [HostLisp.smul_eq_cons_iff, HostLisp.smul_eq_nil_iff, Value.smul_eq_list_iff,
          Value.smul_eq_text_iff, forall_exists_index, and_imp]
        intros
        subst_vars
        solve_by_elim only [*, rfl]
    all_goals simp only [smul_cons, HostLisp.smul_nil, Value.smul_list, Value.smul_text, run]
    case case1 f x =>
      have function : p.Like f (p.names • f) := ⟨rfl, covers.head⟩
      have argument : p.Like [x] [p.names • x] := ⟨rfl, covers.tail⟩
      exact (uniform.invoke function argument).bind fun q later once once' like =>
        uniform.invoke (function.mono later) (like.cons .nil)
    case case2 f items =>
      have function : p.Like f (p.names • f) := ⟨rfl, covers.head⟩
      have held : p.Like items (p.names • items) := ⟨rfl, covers.tail.head.of_list⟩
      have each : ∀ q ≥ p, ∀ a b, q.Like a b →
          Alike q Pairing.Like (calls.invoke f [a]) (calls.invoke (p.names • f) [b]) :=
            fun q later a b like =>
        uniform.invoke (function.mono later) (like.cons .nil)
      exact (Alike.mapM held each).bind fun q later results results' like => .pure like.list
    case case3 f items => exact uniform.invoke ⟨rfl, covers.head⟩ ⟨rfl, covers.tail.head.of_list⟩
    case case4 scope name exprs =>
      exact alike_shownCall calls.room name ⟨rfl, covers.tail.tail.head.of_list⟩
  · have same : operator'.callee = operator.callee := by rw [like.1, Value.callee_smul]
    change Alike p _ (Eval.crash (.unsuitable operator.callee))
      (Eval.crash (.unsuitable operator'.callee))
    rw [same]
    exact .crash _

end Native

end HostLisp
