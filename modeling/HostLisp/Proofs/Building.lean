import HostLisp.Proofs.Calling
import HostLisp.Proofs.Handling
import HostLisp.Proofs.Legible

/-!
Number literals that are built. Their class makes them of texts, and so do its adapters. A run builds a
literal if it comes to such a call and the text is no number.
-/

namespace HostLisp

open Value

/-- Running code comes to call the class of number literals, and is answered with a literal whose text is
no number. -/
def Builds (host : Host) (leeway : Leeway) {α : Type} (place : Option ScopeId) (depth : Nat)
    (run : Calls → Eval α) (state : State) : Prop :=
  ∃ (inner : Nat) (reached : State) (trail : List (Option String)) (operator : Value)
    (arguments : List Value) (literal : Value),
    operator.makesNumbers = true ∧ literal.Misspelt ∧
    (((Engine.ofDepth host inner).invoke operator arguments).outcome reached).1 = .ok literal ∧
    Within host leeway inner (fun calls => calls.invoke operator arguments) reached place depth run state
      trail

section

variable {host : Host} {leeway : Leeway}

theorem Builds.lift {α β : Type} {place outerPlace : Option ScopeId} {depth outer : Nat}
    {run : Calls → Eval α} {whole : Calls → Eval β} {state start : State}
    (builds : Builds host leeway place depth run state)
    (covers : ∀ {inner : Nat} {piece : Calls → Eval Value} {reached : State}
      {trail : List (Option String)},
        Within host leeway inner piece reached place depth run state trail →
          ∃ longer, Within host leeway inner piece reached outerPlace outer whole start longer) :
    Builds host leeway outerPlace outer whole start := by
  obtain ⟨inner, reached, trail, operator, arguments, literal, makes, misspelt, answers, within⟩ :=
    builds
  obtain ⟨longer, covered⟩ := covers within
  exact ⟨inner, reached, longer, operator, arguments, literal, makes, misspelt, answers, covered⟩

theorem not_builds_of_settled (passes : ¬leeway.recovers) (abides : host.Abides leeway) {α : Type}
    {place : Option ScopeId} {depth : Nat} {run : Calls → Eval α} {state : State}
    (settled : Settled ((run (Calls.barring makesNumbers host depth)).outcome state).1) :
    ¬Builds host leeway place depth run state := by
  rintro ⟨_, _, _, _, _, _, makes, -, -, within⟩
  exact within.unsettled passes abides makes settled

end

end HostLisp
