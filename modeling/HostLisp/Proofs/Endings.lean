import HostLisp.Proofs.Depth
import HostLisp.Proofs.Uniform

/-!
Runs to their end, at whatever depth they take. Once a run does not come up against the limit, more
depth changes nothing, so what it ends in is told without depth: for a sequence from its parts, and
for an evaluation from its next step.
-/

namespace HostLisp

open Eval

def Deepens {α : Type} (run : Calls → Eval α) : Prop :=
  ∀ {calls other : Calls}, calls.Agrees other → (run calls).Agrees (run other)

/-- What a run ends in: some depth is enough for it, and any more gives the same. -/
structure Ends {α : Type} (host : Host) (run : Calls → Eval α) (state : State)
    (ending : Except Fault α × State) : Prop where
  settled : Settled ending.1
  enough : ∃ depth, ∀ deeper ≥ depth,
    (run (Engine.ofDepth host deeper).toCalls).outcome state = ending

abbrev Evaluates (host : Host) (scope : ScopeId) (expr : Expr) (state : State)
    (ending : Except Fault Value × State) : Prop :=
  Ends host (fun calls => calls.evaluate scope expr) state ending

theorem Pairing.Results.settled {α β : Type} {p : Pairing} {related : Pairing → α → β → Prop}
    {result : Except Fault α} {result' : Except Fault β} (results : p.Results related result result')
    (settled : Settled result) : Settled result' := by
  cases results with
  | ok values => trivial
  | error fault => exact settled

namespace Ends

variable {host : Host} {α β : Type} {run run' act : Calls → Eval α} {next : α → Calls → Eval β}
  {state after : State}

theorem unique {ending other : Except Fault α × State} (ends : Ends host run state ending)
    (ends' : Ends host run state other) : ending = other := by
  obtain ⟨depth, enough⟩ := ends.enough
  obtain ⟨depth', enough'⟩ := ends'.enough
  rw [← enough (max depth depth') (le_max_left _ _), enough' (max depth depth') (le_max_right _ _)]

theorem of_settled (orderly : host.Orderly) (deepens : Deepens run) {depth : Nat}
    (settled : Settled ((run (Engine.ofDepth host depth).toCalls).outcome state).1) :
    Ends host run state ((run (Engine.ofDepth host depth).toCalls).outcome state) :=
  ⟨settled, depth, fun _ deeper => deepens (Engine.agrees_ofDepth id orderly deeper) state settled⟩

theorem outcome_eq (orderly : host.Orderly) (deepens : Deepens run) {ending : Except Fault α × State}
    (ends : Ends host run state ending) {depth : Nat}
    (settled : Settled ((run (Engine.ofDepth host depth).toCalls).outcome state).1) :
    (run (Engine.ofDepth host depth).toCalls).outcome state = ending :=
  (of_settled orderly deepens settled).unique ends

theorem of_own {act : Eval α} (settled : Settled (act.outcome state).1) :
    Ends host (fun _ => act) state (act.outcome state) :=
  ⟨settled, 0, fun _ _ => rfl⟩

theorem andThen {value : α} {ending : Except Fault β × State}
    (first : Ends host act state (.ok value, after)) (rest : Ends host (next value) after ending) :
    Ends host (fun calls => act calls >>= fun value => next value calls) state ending := by
  obtain ⟨depth, enough⟩ := first.enough
  obtain ⟨depth', enough'⟩ := rest.enough
  refine ⟨rest.settled, max depth depth', fun deeper more => ?_⟩
  rw [outcome_bind_ok (enough deeper (Nat.le_trans (Nat.le_max_left ..) more))]
  exact enough' deeper (Nat.le_trans (Nat.le_max_right ..) more)

theorem andThen_fault {fault : Fault} (first : Ends host act state (.error fault, after)) :
    Ends host (fun calls => act calls >>= fun value => next value calls) state (.error fault, after) := by
  obtain ⟨depth, enough⟩ := first.enough
  exact ⟨first.settled, depth, fun deeper more => outcome_bind_error (enough deeper more)⟩

theorem rest {value : α} {ending : Except Fault β × State}
    (whole : Ends host (fun calls => act calls >>= fun value => next value calls) state ending)
    (first : Ends host act state (.ok value, after)) : Ends host (next value) after ending := by
  obtain ⟨depth, enough⟩ := whole.enough
  obtain ⟨depth', enough'⟩ := first.enough
  refine ⟨whole.settled, max depth depth', fun deeper more => ?_⟩
  have sequence := enough deeper (Nat.le_trans (Nat.le_max_left ..) more)
  rwa [outcome_bind_ok (enough' deeper (Nat.le_trans (Nat.le_max_right ..) more))] at sequence

theorem andThen_iff {value : α} {ending : Except Fault β × State}
    (first : Ends host act state (.ok value, after)) :
    Ends host (fun calls => act calls >>= fun value => next value calls) state ending ↔
      Ends host (next value) after ending :=
  ⟨fun whole => whole.rest first, first.andThen⟩

theorem first (orderly : host.Orderly) (deepens : Deepens act) {ending : Except Fault β × State}
    (whole : Ends host (fun calls => act calls >>= fun value => next value calls) state ending) :
    ∃ ending, Ends host act state ending := by
  obtain ⟨depth, enough⟩ := whole.enough
  have settled := whole.settled
  rw [← enough depth le_rfl] at settled
  have part : Settled ((act (Engine.ofDepth host depth).toCalls).outcome state).1 := by
    rcases ran : (act (Engine.ofDepth host depth).toCalls).outcome state with ⟨fault | value, after⟩
    · rwa [outcome_bind_error ran] at settled
    · trivial
  exact ⟨_, of_settled orderly deepens part⟩

theorem deeper_iff {least : Nat}
    (law : ∀ depth ≥ least, (run (Engine.ofDepth host (depth + 1)).toCalls).outcome state =
      (run' (Engine.ofDepth host depth).toCalls).outcome state) {ending : Except Fault α × State} :
    Ends host run state ending ↔ Ends host run' state ending := by
  constructor
  · rintro ⟨settled, depth, enough⟩
    refine ⟨settled, max depth least, fun deeper more => ?_⟩
    rw [← law deeper (Nat.le_trans (Nat.le_max_right ..) more)]
    exact enough (deeper + 1) (Nat.le_succ_of_le (Nat.le_trans (Nat.le_max_left ..) more))
  · rintro ⟨settled, depth, enough⟩
    refine ⟨settled, max depth least + 1, fun deeper more => ?_⟩
    obtain ⟨inner, rfl⟩ : ∃ inner, deeper = inner + 1 := ⟨deeper - 1, by omega⟩
    have more := Nat.le_of_succ_le_succ more
    rw [law inner (Nat.le_trans (Nat.le_max_right ..) more)]
    exact enough inner (Nat.le_trans (Nat.le_max_left ..) more)

theorem evaluate_iff {scope : ScopeId} {expr : Expr} {ending : Except Fault Value × State} :
    Evaluates host scope expr state ending ↔
      Ends host (fun calls => Engine.evaluateStep ⟨calls, host⟩ scope expr) state ending := by
  refine deeper_iff fun depth (_ : depth ≥ 0) => ?_
  rw [Engine.evaluate_ofDepth]

/-- Alike computations end alike in sessions that correspond. -/
theorem alike [SMul Renaming α] (orderly : host.Orderly) {p : Pairing} {other : State}
    (deepens : Deepens run')
    (alike : ∀ depth, Alike p Pairing.Like (run (Engine.ofDepth host depth).toCalls)
      (run' (Engine.ofDepth host depth).toCalls))
    {ending : Except Fault α × State} (ends : Ends host run state ending)
    (between : p.Between state other) :
    ∃ ending' q, Ends host run' other ending' ∧ p.Follows state other q ending.2 ending'.2 ∧
      q.Between ending.2 ending'.2 ∧ q.Results Pairing.Like ending.1 ending'.1 := by
  obtain ⟨depth, enough⟩ := ends.enough
  obtain ⟨q, follows, corresponds, results⟩ := alike depth p (le_refl p) state other between
  rw [enough depth le_rfl] at follows corresponds results
  exact ⟨_, q, of_settled orderly deepens (results.settled ends.settled), follows, corresponds, results⟩

end Ends

end HostLisp
