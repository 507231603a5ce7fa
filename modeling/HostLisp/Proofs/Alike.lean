import HostLisp.Proofs.Correspondence

/-!
Computations that are alike. Run from sessions that correspond, they end in values, or faults, that
are alike, and leave sessions that correspond.
-/

namespace HostLisp

/-- How the results of two computations are related: values as told, and faults are the same. -/
inductive Pairing.Results {α β : Type} (p : Pairing) (related : Pairing → α → β → Prop) :
    Except Fault α → Except Fault β → Prop where
  | ok {a : α} {b : β} (values : related p a b) : Results p related (.ok a) (.ok b)
  | error (fault : Fault) : Results p related (.error fault) (.error fault)

namespace Eval

variable {α β γ δ : Type} {p q : Pairing}

/-- Whether two computations do the same up to names, from wherever they start. -/
def Alike (p : Pairing) (related : Pairing → α → β → Prop) (act : Eval α) (other : Eval β) : Prop :=
  ∀ q ≥ p, ∀ left right, q.Between left right →
    ∃ r, q.Follows left right r (act.outcome left).2 (other.outcome right).2 ∧
      r.Between (act.outcome left).2 (other.outcome right).2 ∧
      r.Results related (act.outcome left).1 (other.outcome right).1

namespace Alike

variable {related : Pairing → α → β → Prop} {act : Eval α} {other : Eval β}

theorem of_results {result : Except Fault α} {result' : Except Fault β}
    (act_outcome : ∀ state, act.outcome state = (result, state))
    (other_outcome : ∀ state, other.outcome state = (result', state))
    (results : ∀ q ≥ p, q.Results related result result') : Alike p related act other := by
  intro q later left right between
  rw [act_outcome, other_outcome]
  exact ⟨q, .refl q left right, between, results q later⟩

theorem pure [SMul Renaming α] {a b : α} (like : p.Like a b) :
    Alike p Pairing.Like (pure a) (pure b) :=
  of_results (fun _ => rfl) (fun _ => rfl) fun _ later => .ok (like.mono later)

theorem throw (fault : Fault) : Alike p related (throw fault) (throw fault) :=
  of_results (fun _ => rfl) (fun _ => rfl) fun _ _ => .error fault

theorem crash (cause : Crash) : Alike p related (crash cause) (crash cause) := .throw _

theorem fail (failure : Failure) : Alike p related (fail failure) (fail failure) := .throw _

theorem bind {related' : Pairing → γ → δ → Prop} {next : α → Eval γ} {next' : β → Eval δ}
    (first : Alike p related act other)
    (rest : ∀ q ≥ p, ∀ a b, related q a b → Alike q related' (next a) (next' b)) :
    Alike p related' (act >>= next) (other >>= next') := by
  intro q later left right between
  obtain ⟨r, follows, corresponds, results⟩ := first q later left right between
  rw [outcome_bind, outcome_bind]
  rcases ran : act.outcome left with ⟨result, left'⟩
  rcases ran' : other.outcome right with ⟨result', right'⟩
  rw [ran, ran'] at follows corresponds results
  cases results with
  | error fault => exact ⟨r, follows, corresponds, .error fault⟩
  | ok values =>
    obtain ⟨s, more, ends, results⟩ :=
      rest r (later.trans follows.le) _ _ values r (le_refl r) left' right' corresponds
    exact ⟨s, follows.trans more, ends, results⟩

theorem get {next : State → Eval α} {next' : State → Eval β}
    (rest : ∀ q ≥ p, ∀ left right, q.Between left right → Alike q related (next left) (next' right)) :
    Alike p related (get >>= next) (get >>= next') := by
  intro q later left right between
  rw [outcome_bind, outcome_bind]
  exact rest q later left right between q (le_refl q) left right between

theorem ofExcept {ε : Type} [SMul Renaming ε] [SMul Renaming α] {fault : ε → Fault}
    (natural : ∀ (f : Renaming) error, fault (f • error) = fault error)
    {result result' : Except ε α} (like : p.Like result result') :
    Alike p Pairing.Like (ofExcept fault result) (ofExcept fault result') := by
  cases result with
  | ok value =>
    rw [like.1]
    exact .pure (like.part fun _ _ same => Except.ok.inj same)
  | error error =>
    rw [like.1, Except.smul_error, HostLisp.Eval.ofExcept, HostLisp.Eval.ofExcept, natural]
    exact .throw _

theorem unlessFlawed (flaw : Option Flaw) (alike : Alike p related act other) :
    Alike p related (unlessFlawed flaw act) (unlessFlawed flaw other) := by
  cases flaw with
  | none => exact alike
  | some flaw => exact .crash flaw.crash

theorem contain (callee : String) (alike : Alike p related act other) :
    Alike p related (contain callee act) (contain callee other) := by
  intro q later left right between
  obtain ⟨r, follows, corresponds, results⟩ := alike q later left right between
  rw [outcome_contain, outcome_contain]
  rcases ran : act.outcome left with ⟨result, left'⟩
  rcases ran' : other.outcome right with ⟨result', right'⟩
  rw [ran, ran'] at follows corresponds results
  cases results with
  | ok values => exact ⟨r, follows, corresponds, .ok values⟩
  | error fault =>
    cases fault with
    | failure failure => exact ⟨r, follows, corresponds, .error _⟩
    | crash cause => exact ⟨r, follows, corresponds, .error _⟩

theorem mapM {run run' : γ → Eval α} [SMul Renaming γ] [SMul Renaming α] {items items' : List γ}
    (like : p.Like items items')
    (each : ∀ q ≥ p, ∀ a b, q.Like a b → Alike q Pairing.Like (run a) (run' b)) :
    Alike p Pairing.Like (items.mapM run) (items'.mapM run') := by
  induction items generalizing p items' with
  | nil =>
    rw [like.of_nil]
    exact .pure .nil
  | cons item items ih =>
    obtain ⟨item', items', rfl, head, tail⟩ := like.of_cons
    rw [List.mapM_cons, List.mapM_cons]
    refine (each p (le_refl p) item item' head).bind fun q later a b first => ?_
    refine (ih (tail.mono later) fun r more => each r (later.trans more)).bind fun r more as bs rest => ?_
    exact .pure ((first.mono more).cons rest)

theorem foldlM {run run' : α → γ → Eval α} [SMul Renaming γ] [SMul Renaming α] {items items' : List γ}
    (like : p.Like items items')
    (each : ∀ q ≥ p, ∀ held held' a b, q.Like held held' → q.Like a b →
      Alike q Pairing.Like (run held a) (run' held' b)) {held held' : α} (start : p.Like held held') :
    Alike p Pairing.Like (items.foldlM run held) (items'.foldlM run' held') := by
  induction items generalizing p items' held held' with
  | nil =>
    rw [like.of_nil]
    exact .pure start
  | cons item items ih =>
    obtain ⟨item', items', rfl, head, tail⟩ := like.of_cons
    rw [List.foldlM_cons, List.foldlM_cons]
    refine (each p (le_refl p) held held' item item' start head).bind fun q later a b result => ?_
    exact ih (tail.mono later) (fun r more => each r (later.trans more)) result

end Alike

/-! ### What computations do by themselves -/

variable {scope scope' : ScopeId}

theorem alike_lookup (scopes : p.Like (Name.scope scope) (.scope scope')) (name : String) :
    Alike p Pairing.Like (lookup scope name) (lookup scope' name) := by
  intro q later left right between
  obtain ⟨same, covers⟩ := scopes.mono later
  have found := between.resolve? (between.mem covers) name
  rw [Name.scope.inj same, outcome_lookup, outcome_lookup, found.1]
  cases held : left.scopes.resolve? scope name with
  | none =>
    exact ⟨q, .refl q left right, between, .error _⟩
  | some value =>
    rw [held] at found
    have value : q.Like value (q.names • value) := found.part fun _ _ same => Option.some.inj same
    exact ⟨q, .refl q left right, between, .ok value⟩

theorem alike_bind (scopes : p.Like (Name.scope scope) (.scope scope')) (name : String)
    {value value' : Value} (like : p.Like value value') :
    Alike p (fun _ _ _ => True) (Eval.bind scope name value) (Eval.bind scope' name value') := by
  intro q later left right between
  obtain ⟨same, covers⟩ := scopes.mono later
  obtain ⟨follows, corresponds⟩ := between.bind (between.mem covers) name (like.mono later)
  rw [Name.scope.inj same]
  exact ⟨q, follows, corresponds, .ok trivial⟩

theorem alike_modify {change change' : State → State}
    (still : ∀ state, (change state).scopes = state.scopes ∧ (change state).serial = state.serial ∧
      (change state).splices = state.splices)
    (still' : ∀ state, (change' state).scopes = state.scopes ∧ (change' state).serial = state.serial ∧
      (change' state).splices = state.splices) :
    Alike p (fun _ _ _ => True) (modify change : Eval Unit) (modify change' : Eval Unit) := by
  intro q later left right between
  obtain ⟨scopes, serial, splices⟩ := still left
  obtain ⟨scopes', serial', splices'⟩ := still' right
  obtain ⟨r, follows, corresponds, -⟩ := between.exists_follows (change left) (change' right) ∅
    (fun name => by cases name <;> simp [State.Has, scopes, serial, splices])
    (fun name => by cases name <;> simp [State.Has, scopes', serial', splices'])
    (fun id _ => by rw [scopes]) (fun id _ => by rw [scopes']) nofun
  exact ⟨r, follows, corresponds, .ok trivial⟩

theorem alike_print (text : String) : Alike p (fun _ _ _ => True) (print text) (print text) :=
  alike_modify (fun _ => ⟨rfl, rfl, rfl⟩) fun _ => ⟨rfl, rfl, rfl⟩

theorem alike_record (value value' : Value) :
    Alike p (fun _ _ _ => True) (record value) (record value') :=
  alike_modify (fun _ => ⟨rfl, rfl, rfl⟩) fun _ => ⟨rfl, rfl, rfl⟩

theorem alike_cancel : Alike p (fun _ _ _ => True) cancel cancel :=
  alike_modify (fun _ => ⟨rfl, rfl, rfl⟩) fun _ => ⟨rfl, rfl, rfl⟩

theorem alike_stamp : Alike p (fun q a b => q.Like (Name.object a) (.object b)) stamp stamp := by
  intro q later left right between
  obtain ⟨r, follows, corresponds, new⟩ := between.exists_follows _ _ {.object 0} left.has_stamp
    right.has_stamp (fun _ _ => by rfl) (fun _ _ => by rfl) nofun
  obtain ⟨among, same⟩ := new _ rfl
  exact ⟨r, follows, corresponds, .ok ⟨same.symm, .of_mem among⟩⟩

theorem alike_spliceStamp :
    Alike p (fun q a b => q.Like (Name.splice a) (.splice b)) spliceStamp spliceStamp := by
  intro q later left right between
  obtain ⟨r, follows, corresponds, new⟩ := between.exists_follows _ _ {.splice 0} left.has_spliceStamp
    right.has_spliceStamp (fun _ _ => by rfl) (fun _ _ => by rfl) nofun
  obtain ⟨among, same⟩ := new _ rfl
  exact ⟨r, follows, corresponds, .ok ⟨same.symm, .of_mem among⟩⟩

theorem alike_child {around around' : Option ScopeId}
    (scopes : p.Like (Name.around around) (Name.around around')) :
    Alike p (fun q a b => q.Like (Name.scope a) (.scope b)) (child around) (child around') := by
  have kept : ∀ (store : Store) around, ∀ id < store.size,
      (store.child around).1.scope id = store.scope id := by
    intro store around id old
    rw [Store.scope_child, if_neg (Nat.ne_of_lt old)]
  have made : ∀ (store : Store) around, (store.child around).1.scope store.size =
      { enclosing := store.inside around } := by
    intro store around
    rw [Store.scope_child, if_pos rfl]
  intro q later left right between
  obtain ⟨same, covers⟩ := scopes.mono later
  rw [Name.smul_around] at same
  rw [Name.around_injective same]
  obtain ⟨r, follows, corresponds, new⟩ := between.exists_follows _ _ Set.univ
    (left.has_child around) (right.has_child (around.map q.names.scope)) (kept _ _) (kept _ _)
    fun r more _ _ => by
      rw [made, made]
      exact (between.inside covers).mono more
  obtain ⟨inside, moved⟩ := new .scope trivial
  exact ⟨r, follows, corresponds, .ok ⟨moved.symm, .of_mem inside⟩⟩

theorem alike_fresh {value value' : Value} (like : p.Like value value') :
    Alike p Pairing.Like (fresh value) (fresh value') := by
  have stamps : value'.isStamped = value.isStamped := by rw [like.1, Value.isStamped_smul]
  unfold fresh
  rw [stamps]
  split
  · refine alike_stamp.bind fun q later a b stamped => .pure ?_
    have held := like.mono later
    refine ⟨?_, fun f g agree => ?_⟩
    · rw [held.1, Name.object.inj stamped.1, Value.stamped_smul]
    · rw [← Value.stamped_smul, ← Value.stamped_smul, held.2 f g agree,
        Name.object.inj (stamped.2 f g agree)]
  · exact .pure like

end Eval

end HostLisp
