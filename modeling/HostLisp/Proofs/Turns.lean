import HostLisp.Proofs.Recurrence

/-!
Evaluations in turn. The operator and the arguments of a call are evaluated one after another; where
they are stable, it makes no difference whether that happens early or late.
-/

namespace HostLisp

open Eval

inductive InTurn (host : Host) (scope : ScopeId) : List Expr → State → List Value → State → Prop where
  | nil {state : State} : InTurn host scope [] state [] state
  | cons {expr : Expr} {exprs : List Expr} {state mid after : State} {value : Value} {values : List Value}
      (first : Evaluates host scope expr state (.ok value, mid))
      (others : InTurn host scope exprs mid values after) :
      InTurn host scope (expr :: exprs) state (value :: values) after

namespace InTurn

variable {host : Host} {scope : ScopeId} {exprs : List Expr} {values : List Value} {state after : State}

theorem of_cons {expr : Expr} (turn : InTurn host scope (expr :: exprs) state values after) :
    ∃ value rest mid, values = value :: rest ∧
      Evaluates host scope expr state (.ok value, mid) ∧ InTurn host scope exprs mid rest after := by
  cases turn with
  | cons first others => exact ⟨_, _, _, rfl, first, others⟩

theorem ends_iff {α : Type} (turn : InTurn host scope exprs state values after) (others : List Expr)
    (next : List Value → Calls → Eval α) {ending : Except Fault α × State} :
    Ends host (fun calls => Engine.evaluateAll ⟨calls, host⟩ scope (exprs ++ others) >>=
      fun values => next values calls) state ending ↔
      Ends host (fun calls => Engine.evaluateAll ⟨calls, host⟩ scope others >>=
        fun rest => next (values ++ rest) calls) after ending := by
  induction turn generalizing next with
  | nil => rfl
  | @cons expr exprs state mid after value values first others' ih =>
    have step : ∀ calls : Calls,
        (Engine.evaluateAll ⟨calls, host⟩ scope (expr :: exprs ++ others) >>=
          fun values => next values calls) =
          calls.evaluate scope expr >>= fun value =>
            Engine.evaluateAll ⟨calls, host⟩ scope (exprs ++ others) >>=
              fun values => next (value :: values) calls := by
      intro calls
      simp [Engine.evaluateAll]
    simp only [step]
    rw [first.andThen_iff]
    exact ih fun values => next (value :: values)

theorem call_iff {head inner : Expr} {before others : List Expr} {operator : Value}
    (turn : InTurn host scope (head :: before) state (operator :: values) after)
    (invokable : operator.isInvokable = true) {ending : Except Fault Value × State} :
    Evaluates host scope (.list (head :: (before ++ inner :: others))) state ending ↔
      Ends host (fun calls => calls.evaluate scope inner >>= fun value =>
        Engine.evaluateAll ⟨calls, host⟩ scope others >>= fun rest =>
          calls.invoke operator (values ++ value :: rest)) after ending := by
  rw [Ends.evaluate_iff]
  cases turn with
  | cons first turn =>
    refine first.andThen_iff.trans ?_
    cases operator with
    | form _ | operative _ _ _ => cases invokable
    | _ =>
      simp only [invokable, if_true]
      rw [turn.ends_iff]
      simp [Engine.evaluateAll]

end InTurn

/-- Whether an expression has the same value at the start of a run as in some later states of it, and
leaves all scopes as they are. The same is up to the names that come up with the value, as those of a
new closure do; the very same value each time is a special case (`Stable.of_same`). -/
def Stable (host : Host) (scope : ScopeId) (start : State) (later : State → Prop) (expr : Expr) : Prop :=
  ∃ value after, Evaluates host scope expr start (.ok value, after) ∧ start.Keeps after ∧
    ∀ state, later state → ∃ (p : Pairing) (value' : Value) (after' : State),
      Evaluates host scope expr state (.ok value', after') ∧ state.Keeps after' ∧
      p.Again start after state after' ∧ p.Like value value'

/-- A run that was made early on the right, and may still be made late on the left: when sessions
correspond by a pairing that has nothing of it, the late run ends in something alike, and they still
correspond. -/
structure Early {α : Type} [SMul Renaming α] (σ : State) (later : State → Prop)
    (run : State → α → State → Prop) (ν : State) (value : α) (ν' : State) : Prop where
  made : run ν value ν'
  onward : ν.Extends ν'
  late : ∀ {reached τ ω : State} {p : Pairing}, later reached → reached.same.Between reached τ →
    p.Between τ ω → σ.same ≤ p → p.Spares ω ν ν' →
    ∃ value' τ' q, run τ value' τ' ∧ τ.Extends τ' ∧ p.Gains q ν ν' ∧ q.Between τ' ω ∧
      q.Like value' value

section

variable {host : Host} (orderly : host.Orderly) (uniform : host.Uniform) {scope : ScopeId} {σ ν : State}
  {later : State → Prop} (coherent : σ.Coherent) (has : σ.Has (.scope scope))
  (since : ∀ state, later state → ∀ name, σ.Has name → state.Has name)
include orderly uniform coherent has since

omit since in
theorem Stable.of_same {expr : Expr} {value : Value} {after : State}
    (covers : Covers {name | σ.Has name} expr) (known : Covers {name | σ.Has name} value)
    (ends : Evaluates host scope expr σ (.ok value, after)) (keeps : σ.Keeps after)
    (again : ∀ state, later state → ∃ after',
      Evaluates host scope expr state (.ok value, after') ∧ state.Keeps after') :
    Stable host scope σ later expr := by
  obtain ⟨-, grows, -⟩ := ends.coherent orderly uniform coherent has covers
  refine ⟨value, after, ends, keeps, fun state reached => ?_⟩
  obtain ⟨after', ends', keeps'⟩ := again state reached
  refine ⟨σ.same, value, after', ends', keeps', ?_, State.like_same known⟩
  exact {
    le := le_refl _
    left_has := grows
    new := fun name has apart => absurd has apart
    scopes := fun id has apart => absurd has apart }

theorem Stable.early {expr : Expr} (stable : Stable host scope σ later expr)
    (covers : Covers {name | σ.Has name} expr) (between : σ.same.Between σ ν) :
    ∃ value ν', Early σ later (fun before value after =>
      Evaluates host scope expr before (.ok value, after)) ν value ν' := by
  obtain ⟨value, after, ends, keeps, again⟩ := stable
  obtain ⟨coherent', grows, known⟩ := ends.coherent orderly uniform coherent has covers
  obtain ⟨f, early, ν', ends', onward, first, like⟩ :=
    (Pairing.Again.self coherent' grows).repeat orderly uniform (State.like_same (known value rfl))
      ends keeps (fun _ has => has) has covers between
  refine ⟨early, ν', ends', onward, ?_⟩
  intro reached τ ω p reach renewed between le spares
  obtain ⟨q, value', after', again, keeps, second, like'⟩ := again reached reach
  obtain ⟨g, late, τ', ends, onward, second, like'⟩ :=
    second.repeat orderly uniform like' again keeps (since reached reach) has covers renewed
  obtain ⟨r, gains, corresponds, agree⟩ :=
    first.join second second.left_has between le spares onward
  exact ⟨late, τ', r, ends, onward, gains, corresponds, .through agree like' like⟩

theorem InTurn.exists_early {exprs : List Expr} (stable : ∀ expr ∈ exprs, Stable host scope σ later expr)
    (covers : Covers {name | σ.Has name} exprs) (between : σ.same.Between σ ν) :
    ∃ values ν', Early σ later (InTurn host scope exprs) ν values ν' := by
  induction exprs generalizing ν with
  | nil =>
    refine ⟨[], ν, .nil, .refl ν, ?_⟩
    intro reached τ ω p _ _ between _ _
    exact ⟨[], τ, p, .nil, .refl τ, .refl p ν ν, between, .nil⟩
  | cons expr exprs ih =>
    obtain ⟨value, mid, first⟩ :=
      (stable expr (.head _)).early orderly uniform coherent has since covers.head between
    obtain ⟨values, ν', rest⟩ :=
      ih (fun expr among => stable expr (.tail _ among)) covers.tail
        (between.onward (.refl σ) first.onward)
    refine ⟨value :: values, ν', .cons first.made rest.made, first.onward.trans rest.onward, ?_⟩
    intro reached τ ω p reach renewed between le spares
    obtain ⟨value', mid', q, ends, onward, gains, corresponds, like⟩ :=
      first.late reach renewed between le (spares.first rest.onward)
    obtain ⟨values', τ', r, turn, onward', gains', corresponds', likes⟩ :=
      rest.late reach (renewed.onward (.refl reached) onward) corresponds (le.trans gains.le)
        (spares.rest gains first.onward.grows)
    exact ⟨value' :: values', τ', r, .cons ends turn, onward.trans onward',
      gains.trans gains' first.onward.grows rest.onward.grows, corresponds',
      (like.mono gains'.le).cons likes⟩

end

end HostLisp
