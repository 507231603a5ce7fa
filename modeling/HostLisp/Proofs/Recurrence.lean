import HostLisp.Proofs.Endings
import HostLisp.Session

/-!
The same evaluation at different times. A session that has gone on still has what it had; code that
changes no scopes can be evaluated in it again, and gives the same up to the names that come up on the
way. What one run evaluated early and another one late is brought together by pairing those names.
-/

namespace HostLisp

open Eval

namespace State

def same (state : State) : Pairing := ⟨1, {name | state.Has name}⟩

theorem like_same {state : State} {α : Type} [MulAction Renaming α] {a : α}
    (covers : Covers {name | state.Has name} a) : state.same.Like a a :=
  ⟨(one_smul _ a).symm, covers⟩

theorem like_same_scope {state : State} {id : ScopeId} (has : state.Has (.scope id)) :
    state.same.Like (Name.scope id) (.scope id) := like_same (.of_mem has)

/-- Whether everything that a session holds has names of that session. -/
def Coherent (state : State) : Prop := state.same.Between state state

end State

/-! ### Sessions at their start -/

def Store.Nameless (store : Store) : Prop := ∀ id (f : Renaming), f • store.scope id = store.scope id

namespace Store.Nameless

theorem fresh : (empty.fresh.1).Nameless := by
  intro id f
  have blank : empty.fresh.1.scope id = {} := by
    by_cases here : id = 0
    · subst here
      rfl
    · exact (getD_push #[] {} id).trans (if_neg here)
  rw [blank]
  rfl

theorem bind {store : Store} (nameless : store.Nameless) (id : ScopeId) (name : String) {value : Value}
    (fixed : ∀ f : Renaming, f • value = value) (doc : Option String) :
    (store.bind id name value doc).Nameless := by
  intro other f
  rw [scope_bind]
  split
  · have bound := Scope.bind_smul f (store.scope other) name value
    rw [nameless, fixed] at bound
    exact congrArg
      (fun scope : Scope => { scope with docs := ((store.scope other).bind name value doc).docs })
      bound.symm
  · exact nameless other f

theorem bindAll {store : Store} (nameless : store.Nameless) (id : ScopeId) {bindings : List Binding}
    (fixed : ∀ binding ∈ bindings, ∀ f : Renaming, f • binding.value = binding.value) :
    (store.bindAll id bindings).Nameless := by
  induction bindings generalizing store with
  | nil => exact nameless
  | cons binding bindings ih =>
    exact ih (nameless.bind id binding.name (fixed binding (.head _)) binding.doc)
      fun other among => fixed other (.tail _ among)

end Store.Nameless

theorem Store.size_bindAll (store : Store) (id : ScopeId) (bindings : List Binding) :
    (store.bindAll id bindings).size = store.size := by
  induction bindings generalizing store with
  | nil => rfl
  | cons binding bindings ih => exact (ih _).trans (size_bind ..)

theorem Session.has_root (bindings : List Binding) : (initial bindings).Has (.scope 0) := by
  change 0 < (Store.empty.fresh.1.bindAll 0 bindings).size
  rw [Store.size_bindAll]
  exact Nat.zero_lt_one

theorem Session.coherent_initial {bindings : List Binding}
    (fixed : ∀ binding ∈ bindings, ∀ f : Renaming, f • binding.value = binding.value) :
    (initial bindings).Coherent where
  left_has _ has := has
  right_has name has := by
    rw [State.same, one_smul]
    exact has
  unstamped := .inl (has_root bindings)
  scopes id _ := .of_fixed (Store.Nameless.fresh.bindAll 0 fixed id)

namespace Pairing

variable {σ ν τ τ' ω : State} {p q : Pairing}

theorem Between.scope_eq (between : σ.same.Between σ ν) {id : ScopeId} (has : σ.Has (.scope id)) :
    ν.scopes.scope id = σ.scopes.scope id := by
  have same := (between.scopes id has).1
  exact same.trans (one_smul _ _)

theorem Between.coherent (between : p.Between σ ν) (complete : ∀ name, σ.Has name → name ∈ p.domain) :
    σ.Coherent where
  left_has _ has := has
  right_has name has := by
    rw [State.same, one_smul]
    exact has
  unstamped := between.left_has _ between.unstamped
  scopes id has :=
    ⟨(one_smul _ _).symm, (between.scopes id (complete _ has)).2.mono fun name => between.left_has name⟩

theorem Like.trans {α : Type} [MulAction Renaming α] {a b c : α} (first : p.Like a b)
    (second : q.Like b c) :
    (⟨q.names * p.names, p.domain⟩ : Pairing).Like a c :=
  ⟨by rw [second.1, first.1, mul_smul], first.2⟩

theorem Like.through {r : Pairing} (agree : ∀ name ∈ p.domain,
      p.names • name ∈ r.domain ∧ r.names • p.names • name = q.names • name)
    {α : Type} [MulAction Renaming α] {a b c : α} (first : p.Like a b) (second : q.Like a c) :
    r.Like b c := by
  refine ⟨?_, fun f g same => ?_⟩
  · rw [second.1, first.1, ← mul_smul]
    refine first.2 _ _ fun name among => ?_
    rw [mul_smul, (agree name among).2]
  · rw [first.1, ← mul_smul, ← mul_smul]
    refine first.2 _ _ fun name among => ?_
    rw [mul_smul, mul_smul, same _ (agree name among).1]

/-- Whether a pairing leaves out what came up on the right between two sessions, in a session that
still has it. -/
structure Spares (p : Pairing) (ω ν ν' : State) : Prop where
  free : ∀ name ∈ p.domain, ν'.Has (p.names • name) → ν.Has (p.names • name)
  there : ∀ name, ν'.Has name → ω.Has name
  still : ∀ id, ν'.Has (.scope id) → ¬ν.Has (.scope id) → ω.scopes.scope id = ν'.scopes.scope id

/-- Whether a pairing takes up some of what came up on the right between two sessions, and nothing
else. -/
structure Gains (p q : Pairing) (ν ν' : State) : Prop where
  le : p ≤ q
  new : ∀ name ∈ q.domain, name ∈ p.domain ∨ ν'.Has (q.names • name) ∧ ¬ν.Has (q.names • name)

section

variable {r : Pairing} {ν' ν'' : State}

theorem Gains.refl (p : Pairing) (ν ν' : State) : p.Gains p ν ν' := ⟨le_refl p, fun _ among => .inl among⟩

theorem Gains.trans (first : p.Gains q ν ν') (second : q.Gains r ν' ν'')
    (before : ∀ name, ν.Has name → ν'.Has name) (between : ∀ name, ν'.Has name → ν''.Has name) :
    p.Gains r ν ν'' where
  le := first.le.trans second.le
  new := by
    intro name among
    rcases second.new name among with among | ⟨has, new⟩
    · rw [← second.le.2 name among]
      exact (first.new name among).imp_right fun ⟨has, new⟩ => ⟨between _ has, new⟩
    · exact .inr ⟨has, fun old => new (before _ old)⟩

theorem Spares.first (spares : p.Spares ω ν ν'') (onward : ν'.Extends ν'') : p.Spares ω ν ν' where
  free name among has := spares.free name among (onward.grows _ has)
  there name has := spares.there name (onward.grows name has)
  still id has new := (spares.still id (onward.grows _ has) new).trans (onward.keeps id has)

theorem Spares.rest (spares : p.Spares ω ν ν'') (gains : p.Gains q ν ν')
    (grows : ∀ name, ν.Has name → ν'.Has name) : q.Spares ω ν' ν'' where
  free := by
    intro name among has
    rcases gains.new name among with among | ⟨has, -⟩
    · rw [← gains.le.2 name among] at has ⊢
      exact grows _ (spares.free name among has)
    · exact has
  there := spares.there
  still id has new := spares.still id has fun old => new (grows _ old)

end

/-- How an evaluation that leads from one session to another one comes about again at another time:
names from before stand for themselves, and those that came up stand for names that come up then. -/
structure Again (p : Pairing) (σ after τ after' : State) : Prop where
  le : σ.same ≤ p
  left_has : ∀ name ∈ p.domain, after.Has name
  new : ∀ name ∈ p.domain, ¬σ.Has name → after'.Has (p.names • name) ∧ ¬τ.Has (p.names • name)
  scopes : ∀ id, .scope id ∈ p.domain → ¬σ.Has (.scope id) →
    p.Like (after.scopes.scope id) (after'.scopes.scope (p.names.scope id))

namespace Again

variable {after after' : State}

theorem fixed (again : p.Again σ after τ after') {name : Name} (has : σ.Has name) :
    name ∈ p.domain ∧ p.names • name = name :=
  ⟨again.le.1 has, (again.le.2 name has).symm.trans (one_smul _ _)⟩

theorem self (coherent : after.Coherent) (grows : ∀ name, σ.Has name → after.Has name) :
    after.same.Again σ after σ after where
  le := ⟨grows, fun _ _ => rfl⟩
  left_has _ has := has
  new name has apart := by
    rw [State.same, one_smul]
    exact ⟨has, apart⟩
  scopes id has _ := coherent.scopes id has

theorem later {ω' : State} (again : p.Again σ after τ after') (grows : ∀ name, σ.Has name → τ.Has name)
    (follows : τ.same.Follows τ ω q after' ω') (between : q.Between after' ω') :
    (⟨q.names * p.names, p.domain⟩ : Pairing).Again σ after ω ω' := by
  have paired : ∀ name ∈ p.domain, ¬σ.Has name → p.names • name ∈ q.domain ∧ ¬τ.Has (p.names • name) := by
    intro name among apart
    obtain ⟨has, new⟩ := again.new name among apart
    exact ⟨(follows.complete _ has).resolve_left new, new⟩
  constructor
  case le =>
    refine ⟨again.le.1, fun name has => ?_⟩
    have still := follows.le.2 name (grows name has)
    rw [State.same, one_smul] at still
    rw [State.same, one_smul, mul_smul, (again.fixed has).2]
    exact still
  case left_has => exact again.left_has
  case new =>
    intro name among apart
    obtain ⟨inside, new⟩ := paired name among apart
    rw [mul_smul]
    exact ⟨between.right_has _ inside, (follows.new _ inside new).2⟩
  case scopes =>
    intro id among apart
    obtain ⟨inside, -⟩ := paired _ among apart
    exact (again.scopes id among apart).trans (between.scopes _ inside)

/-- What one run evaluated early and another one evaluates late is taken up by a pairing of the two:
the names that came up early stand for those that come up late. -/
theorem join {early late J : Pairing} {ν' : State} (first : early.Again σ after ν ν')
    (second : late.Again σ after τ τ') (among : late.domain ⊆ early.domain) (between : J.Between τ ω)
    (le : σ.same ≤ J) (spares : J.Spares ω ν ν') (onward : τ.Extends τ') :
    ∃ q, J.Gains q ν ν' ∧ q.Between τ' ω ∧ ∀ name ∈ late.domain,
        late.names • name ∈ q.domain ∧ q.names • late.names • name = early.names • name := by
  have born : ∀ name ∈ late.domain, ¬σ.Has name →
      ν'.Has (early.names • name) ∧ ¬ν.Has (early.names • name) := fun name inside =>
    first.new name (among inside)
  obtain ⟨q, more, domain, moves⟩ := J.exists_adjoin
    (Matches.images late.names early.names {name ∈ late.domain | ¬σ.Has name}) (ω.scopes.size + 1)
    (fun name held => Nat.lt_succ_of_le (between.right_has name held).level)
    (by
      rintro a b ⟨name, ⟨inside, apart⟩, -, rfl⟩
      exact Nat.lt_succ_of_le (spares.there _ (born name inside apart).1).level)
    between.unstamped
    (by
      rintro a b ⟨name, ⟨inside, apart⟩, rfl, -⟩ held
      exact (second.new name inside apart).2 (between.left_has _ held))
    (by
      rintro a b ⟨name, ⟨inside, apart⟩, -, rfl⟩ other held same
      obtain ⟨has, new⟩ := born name inside apart
      rw [← same] at has new
      exact new (spares.free other held has))
  have agree : ∀ name ∈ late.domain,
      late.names • name ∈ q.domain ∧ q.names • late.names • name = early.names • name := by
    intro name inside
    by_cases has : σ.Has name
    · rw [(second.fixed has).2, (first.fixed has).2, ← more.2 name (le.1 has)]
      exact ⟨more.1 (le.1 has), (le.2 name has).symm.trans (one_smul _ _)⟩
    · have paired : ∃ other ∈ {name ∈ late.domain | ¬σ.Has name},
          late.names • other = late.names • name ∧ early.names • other = early.names • name :=
        ⟨name, ⟨inside, has⟩, rfl, rfl⟩
      exact ⟨(domain _).2 (.inr ⟨_, paired⟩), moves paired⟩
  -- What is paired anew came up late on the left, and is what came up early on the right.
  have taken : ∀ name ∈ q.domain, name ∉ J.domain →
      ∃ old ∈ late.domain, ¬σ.Has old ∧ late.names • old = name := by
    intro name held apart
    obtain ⟨_, old, ⟨inside, new⟩, same, -⟩ := ((domain name).1 held).resolve_left apart
    exact ⟨old, inside, new, same⟩
  refine ⟨q, ⟨more, fun name held => ?_⟩, between.extend more onward (.refl ω) (fun name held apart => ?_)
    (fun id held apart => ?_), agree⟩
  · by_cases apart : name ∈ J.domain
    · exact .inl apart
    · obtain ⟨old, inside, new, rfl⟩ := taken name held apart
      rw [(agree old inside).2]
      exact .inr (born old inside new)
  · obtain ⟨old, inside, new, rfl⟩ := taken name held apart
    rw [(agree old inside).2]
    exact ⟨(second.new old inside new).1, spares.there _ (born old inside new).1⟩
  · obtain ⟨old, inside, new, same⟩ := taken _ held apart
    cases old with
    | scope old =>
      cases same
      have moved : q.names.scope (late.names.scope old) = early.names.scope old :=
        Name.scope.inj (agree _ inside).2
      obtain ⟨has, fresh⟩ := born _ inside new
      rw [moved, spares.still _ has fresh]
      exact (second.scopes old inside new).through agree (first.scopes old (among inside) new)
    | object stamp => cases same
    | splice stamp => cases same

end Again

end Pairing

section

variable {host : Host} (orderly : host.Orderly) (uniform : host.Uniform) {σ : State}
include orderly uniform

theorem Ends.coherent {α : Type} [SMul Renaming α] {run : Calls → Eval α} (deepens : Deepens run)
    (alike : ∀ {calls : Calls}, calls.Uniform → Alike σ.same Pairing.Like (run calls) (run calls))
    {ending : Except Fault α × State} (ends : Ends host run σ ending) (coherent : σ.Coherent) :
    ending.2.Coherent ∧ (∀ name, σ.Has name → ending.2.Has name) ∧
      ∀ value, ending.1 = .ok value → Covers {name | ending.2.Has name} value := by
  obtain ⟨⟨result, other⟩, q, -, follows, between, results⟩ :=
    ends.alike orderly deepens (fun depth => alike (Engine.uniform_ofDepth uniform depth)) coherent
  have complete : ∀ name, ending.2.Has name → name ∈ q.domain := fun name has =>
    (follows.complete name has).elim (fun has => follows.le.1 has) id
  refine ⟨between.coherent complete, follows.left_grows, fun value gives => ?_⟩
  rw [gives] at results
  cases results with
  | ok like => exact like.2.mono between.left_has

variable {scope : ScopeId} {expr : Expr} {value : Value} {after ν : State}

theorem Evaluates.coherent {ending : Except Fault Value × State}
    (ends : Evaluates host scope expr σ ending)
    (coherent : σ.Coherent) (has : σ.Has (.scope scope)) (covers : Covers {name | σ.Has name} expr) :
    ending.2.Coherent ∧ (∀ name, σ.Has name → ending.2.Has name) ∧
      ∀ value, ending.1 = .ok value → Covers {name | ending.2.Has name} value :=
  Ends.coherent orderly uniform (fun agrees => agrees.evaluate scope expr)
    (fun agrees => agrees.evaluate (State.like_same_scope has) (State.like_same covers)) ends coherent

theorem Evaluates.again (ends : Evaluates host scope expr σ (.ok value, after))
    (keeps : σ.Keeps after) (has : σ.Has (.scope scope)) (covers : Covers {name | σ.Has name} expr)
    (between : σ.same.Between σ ν) :
    ∃ q value' after', Evaluates host scope expr ν (.ok value', after') ∧
      ν.Keeps after' ∧ σ.same.Follows σ ν q after after' ∧ q.Between after after' ∧
      q.Like value value' := by
  obtain ⟨⟨result, after'⟩, q, ends', follows, corresponds, results⟩ :=
    ends.alike orderly (fun agrees => agrees.evaluate scope expr)
      (fun depth => (Engine.uniform_ofDepth uniform depth).evaluate (State.like_same_scope has)
        (State.like_same covers)) between
  obtain ⟨value', rfl, like⟩ : ∃ value', result = .ok value' ∧ q.Like value value' := by
    cases results with
    | ok like => exact ⟨_, rfl, like⟩
  refine ⟨q, value', after', ends', fun id old => ?_, follows, corresponds, like⟩
  -- A scope from before is paired with itself, and the first evaluation kept it; others are not paired.
  by_cases known : σ.Has (.scope id)
  · have moved : id = q.names.scope id := Name.scope.inj (follows.le.2 (.scope id) known)
    have contents := (corresponds.scopes id (follows.le.1 known)).1
    rw [← moved, keeps id known] at contents
    rw [contents, between.scope_eq known, ← (between.scopes id known).2 1 q.names follows.le.2, one_smul]
  · refine follows.kept id old fun name has same => known ?_
    rw [State.same, one_smul] at same
    rwa [← same]

/-- What an evaluation gives at some time, it gives again when it comes about again. -/
theorem Pairing.Again.repeat {p : Pairing} {τ τ' ω : State} {value' : Value}
    (again : p.Again σ after τ τ') (like : p.Like value value')
    (ends : Evaluates host scope expr τ (.ok value', τ')) (keeps : τ.Keeps τ')
    (grows : ∀ name, σ.Has name → τ.Has name) (has : σ.Has (.scope scope))
    (covers : Covers {name | σ.Has name} expr) (between : τ.same.Between τ ω) :
    ∃ f value'' ω', Evaluates host scope expr ω (.ok value'', ω') ∧
      ω.Extends ω' ∧ (⟨f, p.domain⟩ : Pairing).Again σ after ω ω' ∧
      (⟨f, p.domain⟩ : Pairing).Like value value'' := by
  obtain ⟨q, value'', ω', ends', keeps', follows, corresponds, like'⟩ :=
    ends.again orderly uniform keeps (grows _ has) (covers.mono grows) between
  exact ⟨_, value'', ω', ends', ⟨follows.right_grows, keeps'⟩, again.later grows follows corresponds,
    like.trans like'⟩

end

end HostLisp
