import HostLisp.Proofs.Code
import HostLisp.Proofs.Ways

/-!
What runs when a value is called as a function. A form that is called so acts in the scope that it is
handed; conversion hands it no other. The functions of the catalogue and the classes of collections
compute on their own and read no program text.
-/

namespace HostLisp

namespace Value

def wrapsForm : Value → Bool
  | form _ => true
  | operative function _ _ => function.wrapsForm
  | adapter function _ _ _ => function.wrapsForm
  | _ => false

/-- The scope that is handed to a form, if a call of a function comes to that. -/
def handed? (function : Value) : List Value → Option ScopeId
  | scope id :: _ => if function.wrapsForm then some id else none
  | _ => none

theorem handed?_of_wrapsForm {function : Value} (other : function.wrapsForm = false)
    (arguments : List Value) : function.handed? arguments = none := by
  unfold handed?
  split
  · rw [other]
    rfl
  · rfl

theorem wrapsForm_of_handed? {function : Value} {arguments : List Value} {id : ScopeId}
    (handed : function.handed? arguments = some id) : function.wrapsForm = true := by
  cases wraps : function.wrapsForm with
  | true => rfl
  | false => cases (handed?_of_wrapsForm wraps arguments).symm.trans handed

theorem mem_of_handed? {function : Value} {arguments : List Value} {id : ScopeId}
    (handed : function.handed? arguments = some id) : scope id ∈ arguments := by
  unfold handed? at handed
  split at handed
  · split at handed
    · cases handed
      exact List.mem_cons_self
    · cases handed
  · cases handed

theorem handed?_of_codeCall? {form : Form} {arguments : List Value}
    {parts : ScopeId × String × List Expr} (read : codeCall? arguments = some parts) :
    (Value.form form).handed? arguments = some parts.1 := by
  unfold codeCall? at read
  split at read
  · obtain ⟨exprs, -, rfl⟩ := Option.map_eq_some_iff.mp read
    rfl
  · cases read

theorem handed?_of_listed? (function : Value) (name : String) (stamp : Stamp)
    {arguments listed : List Value} (read : listed? arguments = some listed) :
    (operative function name stamp).handed? arguments = function.handed? listed := by
  unfold listed? at read
  split at read
  · next place _ _ =>
    obtain ⟨items, -, rfl⟩ := Option.map_eq_some_iff.mp read
    cases place <;> rfl
  · cases read

theorem Converts.eq_of_kindOf {type : TypeExpr} {value result : Value}
    (converts : Converts type value result) (plain : result.kindOf ∈ [.scope, .text]) :
    result = value := by
  induction converts with
  | none | expression | callable | callableOf | generic | whatever => rfl
  | sequenceOfAll | sequenceOf | tuple | tupleOf | tupleOfAll | tupleExactly =>
    simp [kindOf] at plain
  | kind made =>
    cases casts_of_toKind made with
    | array made =>
      obtain ⟨-, same⟩ | ⟨element, shape, rfl⟩ := toArray_eq_ok made
      · exact same
      · simp [kindOf] at plain
    | same => rfl
    | _ => simp [kindOf] at plain
  | sequence _ found =>
    obtain ⟨-, same, -⟩ | ⟨-, items, -, rfl⟩ := asSequence?_eq_some found
    · exact same
    · simp [kindOf] at plain
  | union _ _ _ _ chosen => exact chosen plain

theorem handed?_of_convertFrom (function : Value) {window : Window} {name : String} {index : Nat}
    {arguments converted : List Value}
    (made : window.convertFrom name index arguments = .ok converted) :
    function.handed? converted = none ∨ function.handed? converted = function.handed? arguments := by
  cases arguments with
  | nil =>
    cases made
    exact .inr rfl
  | cons value values =>
    unfold Window.convertFrom at made
    split at made
    · next first found =>
      obtain ⟨others, -, rfl⟩ := Except.map_eq_ok made
      cases first with
      | scope id =>
        rw [← (converts_of_convert _ found).eq_of_kindOf List.mem_cons_self]
        exact .inr rfl
      | _ => exact .inl rfl
    · cases made
    · cases made

end Value

theorem Native.own_ofExcept {may : Fault → Prop} (usual : ∀ fault, fault.isRead = false → may fault)
    {α : Type} (result : Except Crash α) : (Native.ofExcept result).Own may :=
  Eval.own_ofExcept fun _ _ => usual _ rfl

theorem Kind.own_visited {may : Fault → Prop} (usual : ∀ fault, fault.isRead = false → may fault)
    (value : Value) : (Kind.visited value).Own may := by
  refine (Native.own_ofExcept usual _).andThen fun items => ?_
  split
  · exact Eval.own_mapM Eval.own_fresh items
  · exact Eval.own_pure items

theorem Native.own_compute {may : Fault → Prop} (usual : ∀ fault, fault.isRead = false → may fault)
    (native : Native) (arguments : List Value) : (native.compute arguments).Own may := by
  have crashes (cause : Crash) : may (.crash cause) := usual _ rfl
  have raises (message : String) : may (.failure (.raised message)) := usual _ rfl
  unfold Native.compute
  split
  all_goals
    try refine (Native.own_ofExcept usual _).andThen fun _ => ?_
    solve_by_elim [Eval.own_pure, Eval.own_crash, Eval.own_fail, Eval.own_fresh, Eval.own_record,
      Eval.own_cancel, Eval.own_ite, Native.own_ofExcept, Eval.Own.andThen]

theorem Adapter.function_of {host : Host} {function : Value} {adapter : Adapter}
    (made : Adapter.of host function = .ok adapter) : adapter.function = function := by
  obtain ⟨window, -, made⟩ := Except.bind_eq_ok made
  cases made
  rfl

end HostLisp
