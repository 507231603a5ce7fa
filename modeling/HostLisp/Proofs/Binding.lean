import HostLisp.Evaluator

/-!
Binding of arguments to parameters. A call by position walks along the parameters of a signature and
hands the arguments on to them. The window of a signature lets in just the numbers of arguments with
which this walk comes to an end, and asks of each argument what the parameter declares that takes it.
-/

namespace HostLisp

namespace Parameter

def Role.rank : Role → Nat
  | positionalOnly => 0
  | positional => 1
  | rest => 2
  | keywordOnly => 3
  | keywordRest => 4

/-- What a parameter expects of its arguments, given what texts name and whether the references of its
signature resolve. Where they do not, a reference expects nothing and other types are left as they are
written. -/
inductive Expects (names : String → Reference) (resolves : Bool) (parameter : Parameter) :
    TypeExpr → Prop where
  | anything : parameter.declares = .absent → Expects names resolves parameter .unannotated
  | type {type : TypeExpr} : parameter.declares = .type type → resolves = true →
      Expects names resolves parameter type.resolved
  | written {type : TypeExpr} : parameter.declares = .type type → resolves = false →
      Expects names resolves parameter type
  | reference {text : String} {type : TypeExpr} : parameter.declares = .reference text →
      resolves = true → names text = .known type → Expects names resolves parameter type.resolved
  | unresolved {text : String} : parameter.declares = .reference text → resolves = false →
      Expects names resolves parameter .unannotated

theorem isRequiredKeyword_iff (parameter : Parameter) :
    parameter.isRequiredKeyword = true ↔
      parameter.role = .keywordOnly ∧ parameter.optional = false := by
  simp [isRequiredKeyword]

theorem expects_type {names : String → Reference} {resolves : Bool} {parameter : Parameter}
    (known : resolves = true → ∀ text, parameter.declares = .reference text →
      ∃ type, names text = .known type) :
    parameter.Expects names resolves (parameter.type names resolves) := by
  unfold type
  cases declares : parameter.declares with
  | absent => exact .anything declares
  | type type =>
    cases resolves with
    | true => exact .type declares rfl
    | false => exact .written declares rfl
  | reference text =>
    cases resolves with
    | true =>
      obtain ⟨type, named⟩ := known rfl text declares
      simp only [named]
      exact .reference declares rfl named
    | false => exact .unresolved declares rfl

end Parameter

namespace Parameters

/-- The orders in which parameters may stand: by their roles, and among those by position no required
one after an optional one. -/
structure Permitted (params : Parameters) : Prop where
  ordered : params.Pairwise fun earlier later => earlier.role.rank ≤ later.role.rank
  defaults : params.Pairwise fun earlier later => earlier.isPositional = true →
    later.isPositional = true → earlier.optional = true → later.optional = true

/-- A call with so many arguments by position supplies every parameter that needs it and leaves no
argument over: the parameters that take the arguments, in their order. -/
inductive Binds : Parameters → Nat → List Parameter → Prop where
  | none : Binds [] 0 []
  | takes {parameter : Parameter} {others : Parameters} {count : Nat} {takers : List Parameter} :
      parameter.isPositional = true → Binds others count takers →
      Binds (parameter :: others) (count + 1) (parameter :: takers)
  | omitted {parameter : Parameter} {others : Parameters} {takers : List Parameter} :
      parameter.isPositional = true → parameter.optional = true → Binds others 0 takers →
      Binds (parameter :: others) 0 takers
  | rest {parameter : Parameter} {others : Parameters} {takers : List Parameter} (count : Nat) :
      parameter.role = .rest → Binds others 0 takers →
      Binds (parameter :: others) count (List.replicate count parameter ++ takers)
  | keyword {parameter : Parameter} {others : Parameters} {count : Nat} {takers : List Parameter} :
      parameter.role = .keywordOnly → parameter.optional = true → Binds others count takers →
      Binds (parameter :: others) count takers
  | keywords {parameter : Parameter} {others : Parameters} {count : Nat} {takers : List Parameter} :
      parameter.role = .keywordRest → Binds others count takers →
      Binds (parameter :: others) count takers

def FirstRequired (params : Parameters) (parameter : Parameter) : Prop :=
  ∃ front back, params = front ++ parameter :: back ∧
    parameter.role = .keywordOnly ∧ parameter.optional = false ∧
    ∀ earlier ∈ front, ¬(earlier.role = .keywordOnly ∧ earlier.optional = false)

def positional (params : Parameters) : Parameters := params.filter Parameter.isPositional

def further? (params : Parameters) : Option Parameter := params.find? (·.role = .rest)

def required (params : Parameters) : Nat := params.positional.countP (!·.optional)

theorem required_le (params : Parameters) : params.required ≤ params.positional.length :=
  List.countP_le_length

theorem firstRequired_iff (params : Parameters) (parameter : Parameter) :
    params.find? Parameter.isRequiredKeyword = some parameter ↔
      params.FirstRequired parameter := by
  simp only [List.find?_eq_some_iff_append, Bool.not_eq_true', ← Bool.not_eq_true]
  simp only [Parameter.isRequiredKeyword_iff]
  constructor
  · rintro ⟨⟨keyword, needed⟩, front, back, split, before⟩
    exact ⟨front, back, split, keyword, needed, before⟩
  · rintro ⟨front, back, split, keyword, needed, before⟩
    exact ⟨⟨keyword, needed⟩, front, back, split, before⟩

theorem Permitted.tail {parameter : Parameter} {others : Parameters}
    (permitted : Permitted (parameter :: others)) : Permitted others :=
  ⟨(List.pairwise_cons.mp permitted.ordered).2, (List.pairwise_cons.mp permitted.defaults).2⟩

section

variable {parameter : Parameter} {others : Parameters}

theorem positional_cons (takes : parameter.isPositional = true) :
    positional (parameter :: others) = parameter :: others.positional :=
  List.filter_cons_of_pos takes

theorem positional_skip (skips : parameter.isPositional = false) :
    positional (parameter :: others) = others.positional :=
  List.filter_cons_of_neg (Bool.eq_false_iff.mp skips)

theorem further?_cons (takes : parameter.role = .rest) :
    further? (parameter :: others) = some parameter :=
  List.find?_cons_of_pos (decide_eq_true takes)

theorem further?_skip (skips : parameter.role ≠ .rest) :
    further? (parameter :: others) = others.further? :=
  List.find?_cons_of_neg (by simpa using skips)

theorem required_cons (takes : parameter.isPositional = true) :
    required (parameter :: others) = others.required + if parameter.optional then 0 else 1 := by
  rw [required, positional_cons takes, List.countP_cons, required]
  cases parameter.optional <;> rfl

theorem required_skip (skips : parameter.isPositional = false) :
    required (parameter :: others) = others.required :=
  congrArg (List.countP _) (positional_skip skips)

theorem role_ne_rest (takes : parameter.isPositional = true) : parameter.role ≠ .rest := by
  intro role
  simp [Parameter.isPositional, role] at takes

theorem isPositional_rest (takes : parameter.role = .rest) : parameter.isPositional = false := by
  simp [Parameter.isPositional, takes]

theorem skips_of_keyword (keyword : parameter.role = .keywordOnly ∨ parameter.role = .keywordRest) :
    parameter.isPositional = false ∧ parameter.role ≠ .rest := by
  rcases keyword with role | role <;> simp [Parameter.isPositional, role]

theorem Permitted.positional_eq_nil (permitted : Permitted (parameter :: others))
    (takes : parameter.role = .rest) : others.positional = [] := by
  refine List.filter_eq_nil_iff.mpr fun later among positional => ?_
  have behind := (List.pairwise_cons.mp permitted.ordered).1 later among
  unfold Parameter.isPositional at positional
  cases role : later.role <;> simp [takes, role, Parameter.Role.rank] at behind positional

theorem Permitted.required_eq_zero (permitted : Permitted (parameter :: others))
    (takes : parameter.isPositional = true) (optional : parameter.optional = true) :
    others.required = 0 := by
  refine List.countP_eq_zero.mpr fun later among => ?_
  obtain ⟨listed, positional⟩ := List.mem_filter.mp among
  have follows := (List.pairwise_cons.mp permitted.defaults).1 later listed takes positional optional
  simp [follows]

theorem role_cases (supplied : (parameter :: others).find? Parameter.isRequiredKeyword = none) :
    parameter.isPositional = true ∨ parameter.role = .rest ∨
      parameter.role = .keywordOnly ∧ parameter.optional = true ∨ parameter.role = .keywordRest := by
  have present := List.find?_eq_none.mp supplied parameter List.mem_cons_self
  rw [Parameter.isRequiredKeyword_iff, not_and, Bool.not_eq_false] at present
  cases role : parameter.role with
  | positionalOnly | positional =>
    left
    simp [Parameter.isPositional, role]
  | rest => exact .inr (.inl rfl)
  | keywordOnly => exact .inr (.inr (.inl ⟨rfl, present role⟩))
  | keywordRest => exact .inr (.inr (.inr rfl))

theorem supplied_tail (supplied : (parameter :: others).find? Parameter.isRequiredKeyword = none) :
    others.find? Parameter.isRequiredKeyword = none :=
  List.find?_eq_none.mpr fun later among =>
    List.find?_eq_none.mp supplied later (List.mem_cons_of_mem _ among)

end

section

variable {parameter : Parameter} {others : Parameters} {count : Nat} {takers : List Parameter}

theorem Binds.at_positional (takes : parameter.isPositional = true)
    (binds : Binds (parameter :: others) count takers) :
    (count = 0 ∧ parameter.optional = true ∧ Binds others 0 takers) ∨
      ∃ fewer later, count = fewer + 1 ∧ takers = parameter :: later ∧ Binds others fewer later := by
  unfold Parameter.isPositional at takes
  cases binds with
  | takes _ binds => exact .inr ⟨_, _, rfl, rfl, binds⟩
  | omitted _ optional binds => exact .inl ⟨rfl, optional, binds⟩
  | rest _ role _ | keyword role _ _ | keywords role _ => simp [role] at takes

theorem Binds.at_rest (takes : parameter.role = .rest)
    (binds : Binds (parameter :: others) count takers) :
    ∃ later, takers = List.replicate count parameter ++ later ∧ Binds others 0 later := by
  cases binds with
  | rest _ _ binds => exact ⟨_, rfl, binds⟩
  | takes positional _ | omitted positional _ _ => simp [Parameter.isPositional, takes] at positional
  | keyword role _ _ | keywords role _ => cases takes.symm.trans role

theorem Binds.at_keyword (skips : parameter.isPositional = false) (single : parameter.role ≠ .rest)
    (binds : Binds (parameter :: others) count takers) : Binds others count takers := by
  cases binds with
  | takes positional _ | omitted positional _ _ => cases skips.symm.trans positional
  | rest _ role _ => exact absurd role single
  | keyword _ _ binds | keywords _ binds => exact binds

theorem exists_binds_none (takes : parameter.isPositional = true) :
    (∃ takers, Binds (parameter :: others) 0 takers) ↔
      parameter.optional = true ∧ ∃ takers, Binds others 0 takers := by
  constructor
  · rintro ⟨takers, binds⟩
    obtain ⟨-, optional, binds⟩ | ⟨_, _, more, -⟩ := binds.at_positional takes
    · exact ⟨optional, takers, binds⟩
    · cases more
  · rintro ⟨optional, takers, binds⟩
    exact ⟨takers, .omitted takes optional binds⟩

theorem exists_binds_first (takes : parameter.isPositional = true) :
    (∃ takers, Binds (parameter :: others) (count + 1) takers) ↔
      ∃ takers, Binds others count takers := by
  constructor
  · rintro ⟨takers, binds⟩
    obtain ⟨none, -⟩ | ⟨_, later, same, -, binds⟩ := binds.at_positional takes
    · cases none
    · cases same
      exact ⟨later, binds⟩
  · rintro ⟨takers, binds⟩
    exact ⟨parameter :: takers, .takes takes binds⟩

theorem exists_binds_rest (takes : parameter.role = .rest) :
    (∃ takers, Binds (parameter :: others) count takers) ↔ ∃ takers, Binds others 0 takers := by
  constructor
  · rintro ⟨takers, binds⟩
    obtain ⟨later, -, binds⟩ := binds.at_rest takes
    exact ⟨later, binds⟩
  · rintro ⟨takers, binds⟩
    exact ⟨_, .rest count takes binds⟩

theorem exists_binds_keyword (present : parameter.role = .keywordOnly ∧ parameter.optional = true ∨
      parameter.role = .keywordRest) :
    (∃ takers, Binds (parameter :: others) count takers) ↔ ∃ takers, Binds others count takers := by
  constructor
  · rintro ⟨takers, binds⟩
    obtain ⟨skips, single⟩ := skips_of_keyword (present.imp_left And.left)
    exact ⟨takers, binds.at_keyword skips single⟩
  · rintro ⟨takers, binds⟩
    obtain ⟨keyword, optional⟩ | keywords := present
    · exact ⟨takers, .keyword keyword optional binds⟩
    · exact ⟨takers, .keywords keywords binds⟩

end

theorem exists_binds_iff {params : Parameters} (permitted : params.Permitted)
    (supplied : params.find? Parameter.isRequiredKeyword = none) (count : Nat) :
    (∃ takers, Binds params count takers) ↔
      params.required ≤ count ∧
        (params.further? = none → count ≤ params.positional.length) := by
  induction params generalizing count with
  | nil =>
    constructor
    · rintro ⟨takers, binds⟩
      cases binds
      exact ⟨Nat.le_refl 0, fun _ => Nat.le_refl 0⟩
    · rintro ⟨-, atMost⟩
      cases Nat.le_zero.mp (atMost rfl)
      exact ⟨[], .none⟩
  | cons parameter others ih =>
    have ih := ih permitted.tail (supplied_tail supplied)
    obtain takes | takes | present := role_cases supplied
    · rw [further?_skip (role_ne_rest takes), positional_cons takes, List.length_cons,
        required_cons takes]
      -- An optional parameter takes the first argument as well, since nothing behind it is required.
      have behind : parameter.optional = true → required others = 0 :=
        permitted.required_eq_zero takes
      cases count with
      | zero =>
        rw [exists_binds_none takes, ih]
        cases parameter.optional <;> simp
      | succ count =>
        rw [exists_binds_first takes, ih, Nat.add_le_add_iff_right]
        cases optional : parameter.optional with
        | true => simp [behind optional]
        | false => simp
    · have nothing := permitted.positional_eq_nil takes
      have none : required others = 0 := congrArg (List.countP _) nothing
      rw [exists_binds_rest takes, ih, further?_cons takes, none,
        required_skip (isPositional_rest takes), none]
      simp
    · obtain ⟨skips, single⟩ := skips_of_keyword (present.imp_left And.left)
      rw [exists_binds_keyword present, ih, further?_skip single, required_skip skips,
        positional_skip skips]

theorem Binds.length_eq {params : Parameters} {count : Nat} {takers : List Parameter}
    (binds : Binds params count takers) : takers.length = count := by
  induction binds with
  | none => rfl
  | takes _ _ ih => exact congrArg (· + 1) ih
  | omitted _ _ _ ih | keyword _ _ _ ih | keywords _ _ ih => exact ih
  | rest count _ _ ih => rw [List.length_append, List.length_replicate, ih, Nat.add_zero]

theorem Binds.taker {params : Parameters} {count : Nat} {takers : List Parameter}
    (binds : Binds params count takers) (permitted : params.Permitted) {index : Nat}
    {taker : Parameter} (found : takers[index]? = some taker) :
    params.positional[index]? = some taker ∨
      params.positional.length ≤ index ∧ params.further? = some taker := by
  induction binds generalizing index with
  | none => cases found
  | takes positional binds ih =>
    rw [positional_cons positional, further?_skip (role_ne_rest positional)]
    cases index with
    | zero => exact .inl found
    | succ index =>
      rw [List.length_cons, Nat.add_le_add_iff_right]
      exact ih permitted.tail found
  | omitted positional optional binds =>
    cases List.length_eq_zero_iff.mp binds.length_eq
    cases found
  | rest count role binds =>
    cases List.length_eq_zero_iff.mp binds.length_eq
    rw [List.append_nil, List.getElem?_replicate] at found
    split at found
    · cases found
      rw [positional_skip (isPositional_rest role), permitted.positional_eq_nil role]
      exact .inr ⟨Nat.zero_le _, further?_cons role⟩
    · cases found
  | keyword role optional binds ih =>
    obtain ⟨skips, single⟩ := skips_of_keyword (.inl role)
    rw [positional_skip skips, further?_skip single]
    exact ih permitted.tail found
  | keywords role binds ih =>
    obtain ⟨skips, single⟩ := skips_of_keyword (.inr role)
    rw [positional_skip skips, further?_skip single]
    exact ih permitted.tail found

def admitted (names : String → Reference) (resolved : Bool) (params : Parameters) : Window where
  params := params.positional.map (Parameter.type names resolved)
  arity := ⟨params.required, if params.further?.isSome then none else some params.positional.length⟩
  rest := (params.further?.map (Parameter.type names resolved)).getD .unannotated

theorem exists_firstRequired_iff (params : Parameters) :
    (∃ parameter, params.FirstRequired parameter) ↔
      ∃ parameter ∈ params, parameter.role = .keywordOnly ∧ parameter.optional = false := by
  simp only [← firstRequired_iff, ← Option.isSome_iff_exists, List.find?_isSome,
    Parameter.isRequiredKeyword_iff]

theorem accepts_admitted_iff {params : Parameters} (permitted : params.Permitted)
    (supplied : params.find? Parameter.isRequiredKeyword = none) (names : String → Reference)
    (resolved : Bool) (count : Nat) :
    (params.admitted names resolved).arity.accepts count = true ↔
      ∃ takers, params.Binds count takers := by
  rw [exists_binds_iff permitted supplied]
  unfold admitted Arity.accepts
  cases params.further? with
  | none => simp
  | some parameter => simp

section

variable {params : Parameters} {count : Nat} {takers : List Parameter}

theorem Binds.typeAt_eq (binds : params.Binds count takers) (permitted : params.Permitted)
    (names : String → Reference) (resolved : Bool) {index : Nat} {taker : Parameter}
    (found : takers[index]? = some taker) :
    (params.admitted names resolved).typeAt index = taker.type names resolved := by
  unfold Window.typeAt admitted
  rw [List.getD_eq_getElem?_getD, List.getElem?_map]
  obtain named | ⟨beyond, further⟩ := binds.taker permitted found
  · rw [named]
    rfl
  · rw [List.getElem?_eq_none beyond, further]
    rfl

theorem Binds.mem (binds : params.Binds count takers) (permitted : params.Permitted) {index : Nat}
    {taker : Parameter} (found : takers[index]? = some taker) : taker ∈ params := by
  obtain named | ⟨-, further⟩ := binds.taker permitted found
  · exact (List.mem_filter.mp (List.mem_of_getElem? named)).1
  · exact List.mem_of_find?_eq_some further

end

end Parameters

namespace Signature

variable {names : String → Reference} {signature : Signature} {resolved : Bool}

theorem resolvesAll_iff {texts : List String} (ends : resolvesAll names texts = .ok resolved) :
    resolved = true ↔ ∀ text ∈ texts, ∃ type, names text = .known type := by
  induction texts with
  | nil =>
    cases ends
    exact ⟨fun _ => List.forall_mem_nil _, fun _ => rfl⟩
  | cons text texts ih =>
    rw [List.forall_mem_cons]
    unfold resolvesAll at ends
    split at ends
    · next type named =>
      rw [ih ends]
      exact (and_iff_right ⟨type, named⟩).symm
    · next named =>
      cases ends
      refine ⟨nofun, fun ⟨⟨type, known⟩, _⟩ => ?_⟩
      cases named.symm.trans known
    · cases ends

theorem mem_references {parameter : Parameter} (among : parameter ∈ signature.params) {text : String}
    (declares : parameter.declares = .reference text) : text ∈ signature.references := by
  have listed : parameter.declares ∈ signature.declared parameter.role := by
    refine List.mem_map.mpr ⟨parameter, List.mem_filter.mpr ⟨among, ?_⟩, rfl⟩
    simp
  refine List.mem_filterMap.mpr ⟨parameter.declares, List.mem_append_left _ ?_, by rw [declares]; rfl⟩
  refine List.mem_flatMap.mpr ⟨parameter.role, ?_, listed⟩
  cases parameter.role <;> decide

theorem window_eq (undisturbed : signature.resolves names = .ok resolved) :
    signature.window names =
      match signature.params.find? Parameter.isRequiredKeyword with
      | some parameter => .error (.keywordRequired parameter.name)
      | none => .ok (signature.params.admitted names resolved) := by
  unfold window
  rw [undisturbed]
  change (match signature.params.find? Parameter.isRequiredKeyword with
    | some parameter => _
    | none => _) = _
  cases signature.params.find? Parameter.isRequiredKeyword with
  | some parameter => rfl
  | none =>
    simp only [List.length_map]
    rfl

end Signature

theorem Adapter.of_signature {host : Host} {function : Value} {signature : Signature}
    {resolved : Bool} (declared : function.signature? host = some signature)
    (undisturbed : signature.resolves host.names = .ok resolved) (name : Option String) :
    ∃ called, Adapter.of host function none name =
      match signature.params.find? Parameter.isRequiredKeyword with
      | some parameter => .error (.keywordRequired parameter.name)
      | none => .ok ⟨function, called, signature.params.admitted host.names resolved⟩ := by
  have same : function.window host = signature.window host.names := by rw [Value.window, declared]
  unfold Adapter.of
  rw [same, Signature.window_eq undisturbed]
  cases signature.params.find? Parameter.isRequiredKeyword with
  | some parameter => exact ⟨"", rfl⟩
  | none => exact ⟨_, rfl⟩

/-- The adapter that a signature gives agrees with the binding of arguments, whatever the texts in the
signature name, if resolving them does not fail. There is none if a parameter has to be given by name,
and calls fail about the first of these. Otherwise it lets in the numbers of arguments with which a
call by position binds, and expects of each argument what the parameter does that takes it. -/
theorem adapters_agree_with_binding {host : Host} {function : Value} {signature : Signature}
    {resolved : Bool} (declared : function.signature? host = some signature)
    (permitted : signature.params.Permitted)
    (undisturbed : signature.resolves host.names = .ok resolved) (name : Option String) :
    (∀ error, Adapter.of host function none name = .error error ↔
      ∃ parameter, signature.params.FirstRequired parameter ∧
        error = .keywordRequired parameter.name) ∧
    ((∃ parameter, signature.params.FirstRequired parameter) ↔
      ∃ parameter ∈ signature.params, parameter.role = .keywordOnly ∧ parameter.optional = false) ∧
    (∀ parameter, signature.params.FirstRequired parameter → ∀ engine : Engine,
      engine.host = host → ∀ arguments, engine.callAdapted function arguments =
        Eval.fail (.keywordRequired function.callee parameter.name)) ∧
    (∀ parameter, (Failure.keywordRequired function.callee parameter).className = "ParensCallError" ∧
      (Failure.keywordRequired function.callee parameter).message =
        s!"{function.callee}: keyword-only parameter '{parameter}' cannot be supplied") ∧
    (resolved = true ↔ ∀ text ∈ signature.references, ∃ type, host.names text = .known type) ∧
    (∀ adapter, Adapter.of host function none name = .ok adapter →
      adapter.window.arity.least ≤ adapter.window.params.length ∧
      (∀ count, adapter.window.checkArity adapter.name count = .ok () ↔
        ∃ takers, signature.params.Binds count takers) ∧
      ∀ count takers, signature.params.Binds count takers → takers.length = count ∧
        ∀ (index : Nat) (taker : Parameter), takers[index]? = some taker →
          taker.Expects host.names resolved (adapter.window.typeAt index)) := by
  have known := Signature.resolvesAll_iff undisturbed
  refine ⟨fun error => ?_, signature.params.exists_firstRequired_iff,
    fun parameter first engine same arguments => ?_, fun _ => ⟨rfl, rfl⟩, known, fun adapter ends => ?_⟩
  · obtain ⟨called, made⟩ := Adapter.of_signature declared undisturbed name
    simp only [← Parameters.firstRequired_iff, made]
    cases signature.params.find? Parameter.isRequiredKeyword with
    | some parameter => simp [eq_comm]
    | none => simp
  · obtain ⟨called, made⟩ := Adapter.of_signature declared undisturbed none
    rw [(Parameters.firstRequired_iff _ parameter).mpr first] at made
    unfold Engine.callAdapted
    rw [same, made]
    rfl
  · obtain ⟨called, made⟩ := Adapter.of_signature declared undisturbed name
    rw [made] at ends
    cases supplied : signature.params.find? Parameter.isRequiredKeyword with
    | some parameter =>
      rw [supplied] at ends
      cases ends
    | none =>
      rw [supplied] at ends
      cases ends
      refine ⟨?_, fun count => ?_, fun count takers binds => ⟨binds.length_eq, ?_⟩⟩
      · change signature.params.required ≤
          (signature.params.positional.map (Parameter.type host.names resolved)).length
        rw [List.length_map]
        exact signature.params.required_le
      · rw [← Parameters.accepts_admitted_iff permitted supplied host.names resolved, Window.checkArity]
        split
        · next accepted => exact ⟨fun _ => accepted, fun _ => rfl⟩
        · next refused => exact ⟨nofun, fun accepted => absurd accepted refused⟩
      · intro index taker found
        rw [binds.typeAt_eq permitted host.names resolved found]
        exact Parameter.expects_type fun resolves text declares =>
          known.mp resolves text (Signature.mem_references (binds.mem permitted found) declares)

/-- All roles together: a required and an optional parameter by position, one for all further arguments
and two by name. The same signature without the default of the first of these gives no adapter, and if
the text for the result is unknown then no text counts. -/
theorem adapters_agree_with_binding_roles :
    let host : Host := { Host.catalogue with
      names := fun text =>
        if text = "list[int]" then .known (.sequenceOf .list [.kind .int]) else .unknown }
    let front : Parameters := [
      { name := "a", declares := .type (.kind .int), role := .positionalOnly },
      { name := "b", declares := .reference "list[int]", optional := true },
      { name := "more", declares := .type (.kind .text), role := .rest }]
    let back : Parameters := [{ name := "others", role := .keywordRest }]
    let named : Parameter := { name := "c", role := .keywordOnly, optional := true }
    let signature : Signature := .ofParams (front ++ named :: back)
    let strict : Signature := .ofParams (front ++ { named with optional := false } :: back)
    let vague : Signature := { signature with result := .reference "Elsewhere" }
    let window : Window := ⟨[.kind .int, .sequenceOf .list [.kind .int]], ⟨1, none⟩, .kind .text⟩
    let looser : Window := ⟨[.kind .int, .unannotated], ⟨1, none⟩, .kind .text⟩
    Adapter.of host (.native (.echo "f" signature)) =
        .ok ⟨.native (.echo "f" signature), "f", window⟩ ∧
      Adapter.of host (.native (.echo "f" vague)) = .ok ⟨.native (.echo "f" vague), "f", looser⟩ ∧
      (∃ takers, signature.params.Binds 4 takers) ∧ (¬∃ takers, signature.params.Binds 0 takers) ∧
      Adapter.of host (.native (.echo "f" strict)) = .error (.keywordRequired "c") := by
  intro host front back named signature strict vague window looser
  have made : Adapter.of host (.native (.echo "f" signature)) =
      .ok ⟨.native (.echo "f" signature), "f", window⟩ := by rfl
  have loose : Adapter.of host (.native (.echo "f" vague)) =
      .ok ⟨.native (.echo "f" vague), "f", looser⟩ := by rfl
  have permitted : signature.params.Permitted := ⟨by decide, by decide⟩
  have strictly : strict.params.Permitted := ⟨by decide, by decide⟩
  have undisturbed : signature.resolves host.names = .ok true := by rfl
  have calm : strict.resolves host.names = .ok true := by rfl
  have declared : (Value.native (.echo "f" signature)).signature? host = some signature := rfl
  have stated : (Value.native (.echo "f" strict)).signature? host = some strict := rfl
  obtain ⟨-, -, -, -, -, agrees⟩ := adapters_agree_with_binding declared permitted undisturbed none
  obtain ⟨fails, -⟩ := adapters_agree_with_binding stated strictly calm none
  obtain ⟨-, binds, -⟩ := agrees _ made
  have first : strict.params.FirstRequired { named with optional := false } :=
    ⟨front, back, rfl, rfl, rfl, by decide⟩
  refine ⟨made, loose, (binds 4).mp rfl, fun bound => ?_, (fails _).mpr ⟨_, first, rfl⟩⟩
  cases (binds 0).mpr bound

end HostLisp
