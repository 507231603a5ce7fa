import HostLisp.Proofs.Adjacency
import HostLisp.Proofs.Containment
import HostLisp.Proofs.Depth
import HostLisp.Proofs.RoundTrip

/-!
Submissions put together. A line end after a text never becomes part of its tokens, except that a
carriage return at the very end of the text joins it. So the forms of two texts with a line end
between them are the forms of the first and then those of the second, and to execute them together is
to execute the first and, if it has a value, the second.
-/

namespace HostLisp

namespace Token

open Text

theorem Stops.before_newline {kind : Kind} {chars rest : List Char}
    (stops : Stops kind chars rest.head?) (other : ¬(chars = ['\r'] ∧ rest = [])) (more : List Char) :
    Stops kind chars (rest ++ '\n' :: more).head? := by
  cases rest with
  | cons c rest => exact stops
  | nil =>
    have delimits : isDelimiter '\n' = true := by decide +kernel
    unfold Stops at stops ⊢
    split at stops <;> simp_all [continuesBlank]

/-- The first token of a text stays the same when a line end follows the text, unless the text is a
carriage return. -/
theorem first?_before_newline {c : Char} {cs chars rest : List Char} {kind : Kind}
    (found : first? c cs = some (kind, chars, rest)) (other : ¬(c = '\r' ∧ cs = []))
    (more : List Char) :
    Lexes (c :: (cs ++ '\n' :: more)) [⟨kind, String.ofList chars⟩] (rest ++ '\n' :: more) := by
  have whole := (first?_append found).1
  have apart : ¬(chars = ['\r'] ∧ rest = []) := by
    rintro ⟨rfl, rfl⟩
    exact other (List.cons.inj whole.symm)
  have lexes := Lexes.of_admits (admits_first? found) ((stops_first? found).before_newline apart more)
  rwa [← List.append_assoc, whole] at lexes

def significant (tokens : List Token) : List Token := tokens.filter fun token => !token.kind.isLayout

theorem Lexes.before_newline {cs : List Char} {tokens : List Token} (lexes : Lexes cs tokens [])
    (more : List Char) :
    ∃ others, Lexes (cs ++ '\n' :: more) others more ∧ significant others = significant tokens := by
  generalize ended : ([] : List Char) = rest at lexes
  induction lexes with
  | done rest =>
    subst ended
    exact ⟨_, .newline more, rfl⟩
  | @token c cs chars after rest kind tokens found others ih =>
    by_cases carriage : c = '\r' ∧ cs = []
    · obtain ⟨rfl, rfl⟩ := carriage
      have blank : first? '\r' [] = some (.blank, ['\r'], []) := by decide +kernel
      rw [blank] at found
      cases found
      cases others
      have joined : first? '\r' ('\n' :: more) = some (.newline, ['\r', '\n'], more) := rfl
      exact ⟨_, .one joined, rfl⟩
    · obtain ⟨later, lexesLater, same⟩ := ih ended
      have front := first?_before_newline found carriage more
      refine ⟨_, front.append lexesLater, ?_⟩
      unfold significant at same ⊢
      rw [List.singleton_append, List.filter_cons, List.filter_cons, same]

end Token

open Token Text

theorem Reading.run_significant (limit : Nat) (tokens : List Token) :
    ∀ reading : Reading, reading.run limit (significant tokens) = reading.run limit tokens := by
  induction tokens with
  | nil => exact fun reading => rfl
  | cons token tokens ih =>
    intro reading
    unfold significant at ih ⊢
    by_cases layout : token.kind.isLayout = true
    · rw [List.filter_cons_of_neg (by simp [layout]), run_cons_ok (step_layout limit reading layout)]
      exact ih reading
    · rw [List.filter_cons_of_pos (by simp [layout])]
      cases took : reading.step limit token with
      | ok next =>
        rw [run_cons_ok took, run_cons_ok took]
        exact ih next
      | error error => rw [run_cons_error took, run_cons_error took]

theorem SpellsAll.append {tokens others : List Token} {forms more : List Expr} :
    SpellsAll tokens forms → SpellsAll others more → SpellsAll (tokens ++ others) (forms ++ more)
  | .done, back => back
  | .skip layout rest, back => .skip layout (rest.append back)
  | .form first rest, back => by
    rw [List.append_assoc]
    exact .form first (rest.append back)

namespace Expr

theorem nestingAll_append (exprs others : List Expr) :
    nestingAll (exprs ++ others) = max (nestingAll exprs) (nestingAll others) := by
  induction exprs with
  | nil => simp [nestingAll]
  | cons expr exprs ih => rw [List.cons_append, nestingAll, nestingAll, ih, Nat.max_assoc]

theorem readForms_significant (tokens : List Token) (limit : Nat) :
    readForms (significant tokens) limit = readForms tokens limit := by
  unfold readForms
  rw [Reading.run_significant]

theorem readForms_append {tokens others : List Token} {limit : Nat} {forms more : List Expr}
    (first : readForms tokens limit = (forms, none)) (second : readForms others limit = (more, none)) :
    readForms (tokens ++ others) limit = (forms ++ more, none) := by
  obtain ⟨spells, fits⟩ := (readForms_iff tokens limit forms).mp first
  obtain ⟨spellsMore, fitsMore⟩ := (readForms_iff others limit more).mp second
  refine (readForms_iff _ limit _).mpr ⟨spells.append spellsMore, ?_⟩
  rw [nestingAll_append]
  exact Nat.max_le.mpr ⟨fits, fitsMore⟩

theorem readSource_of_lexes {source : String} {tokens : List Token}
    (lexes : Lexes source.toList tokens []) (limit : Nat) :
    readSource source limit = readForms tokens limit := by
  have scanned : Token.scan source = ⟨tokens, none⟩ := lexes.scan rfl 0
  unfold readSource
  rw [scanned]

def topForms : Expr → List Expr
  | .program forms => forms
  | expr => [expr]

theorem readSource_of_parse {source : String} {name : Option String} {limit : Nat} {expr : Expr}
    (parsed : parse source name limit = .ok expr) :
    readSource source limit = (expr.topForms, none) ∧ expr.topForms ≠ [] := by
  obtain ⟨tokens, lexes⟩ := lexes_of_parse parsed
  rw [parse_of_lexes lexes, parseTokens_iff] at parsed
  obtain ⟨forms, spells, fits, root⟩ := parsed
  have read := (readForms_iff tokens limit forms).mpr ⟨spells, fits⟩
  rw [← readSource_of_lexes lexes] at read
  rcases root with rfl | ⟨several, rfl⟩
  · have readable : expr.Readable := (spells.readable lexes.sound).1.1
    cases expr with
    | program forms => cases readable
    | _ => exact ⟨read, List.cons_ne_nil _ _⟩
  · refine ⟨read, ?_⟩
    rintro rfl
    simp at several

theorem parse_of_readSource {source : String} {limit : Nat} {forms : List Expr}
    (read : readSource source limit = (forms, none)) (several : 1 < forms.length)
    (name : Option String) : parse source name limit = .ok (.program forms) := by
  have made : ofForms forms = .ok (.program forms) :=
    (ofForms_iff forms _).mpr (.inr ⟨several, rfl⟩)
  unfold parse ofOutcome
  rw [read]
  simp only [made]

section

variable {source other : String} {name : Option String} {limit : Nat} {expr more : Expr}

theorem readSource_join (first : parse source name limit = .ok expr)
    (second : parse other name limit = .ok more) :
    readSource (source ++ "\n" ++ other) limit = (expr.topForms ++ more.topForms, none) := by
  obtain ⟨tokens, lexes⟩ := lexes_of_parse first
  obtain ⟨others, lexesOther⟩ := lexes_of_parse second
  obtain ⟨front, lexesFront, same⟩ := lexes.before_newline other.toList
  have text : (source ++ "\n" ++ other).toList = source.toList ++ '\n' :: other.toList := by
    simp
  have joined : Lexes (source ++ "\n" ++ other).toList (front ++ others) [] := by
    rw [text]
    exact lexesFront.append lexesOther
  have readFront : readForms front limit = (expr.topForms, none) := by
    rw [← readForms_significant, same, readForms_significant, ← readSource_of_lexes lexes]
    exact (readSource_of_parse first).1
  have readOther : readForms others limit = (more.topForms, none) := by
    rw [← readSource_of_lexes lexesOther]
    exact (readSource_of_parse second).1
  rw [readSource_of_lexes joined]
  exact readForms_append readFront readOther

theorem parse_join (first : parse source name limit = .ok expr)
    (second : parse other name limit = .ok more) :
    parse (source ++ "\n" ++ other) name limit = .ok (.program (expr.topForms ++ more.topForms)) := by
  refine parse_of_readSource (readSource_join first second) ?_ name
  have front := List.length_pos_iff.mpr (readSource_of_parse first).2
  have back := List.length_pos_iff.mpr (readSource_of_parse second).2
  rw [List.length_append]
  omega

end

end Expr

namespace Engine

theorem runBody_append (engine : Engine) (scope : ScopeId) (body : List Expr) {more : List Expr}
    (present : more ≠ []) :
    engine.runBody scope (body ++ more) = engine.runBody scope body >>= fun _ =>
      engine.runBody scope more := by
  obtain ⟨expr, more, rfl⟩ := List.exists_cons_of_ne_nil present
  unfold runBody
  rw [List.foldlM_append]
  rfl

theorem agrees_topForms {host : Host} (orderly : host.Orderly) (depth : Nat) (scope : ScopeId)
    (expr : Expr) :
    (runBody ⟨(ofDepth host depth).toCalls, host⟩ scope expr.topForms).Agrees
      ((ofDepth host (depth + 1)).evaluate scope expr) := by
  have deeper := (agrees_ofDepth id orderly (Nat.le_succ depth)).evaluate scope expr
  have single : runBody ⟨(ofDepth host depth).toCalls, host⟩ scope [expr] =
      (ofDepth host depth).evaluate scope expr :=
    bind_pure ((ofDepth host depth).evaluate scope expr)
  cases expr with
  | program forms =>
    rw [evaluate_ofDepth]
    exact .refl _
  | _ =>
    rw [← single] at deeper
    exact deeper

theorem agrees_join {host : Host} (orderly : host.Orderly) (depth : Nat) (scope : ScopeId)
    (expr : Expr) {more : Expr} (present : more.topForms ≠ []) :
    ((ofDepth host (depth + 1)).evaluate scope
        (.program (expr.topForms ++ more.topForms))).Agrees
      ((ofDepth host (depth + 1)).evaluate scope expr >>= fun _ =>
        (ofDepth host (depth + 1)).evaluate scope more) := by
  have together : (ofDepth host (depth + 1)).evaluate scope
      (.program (expr.topForms ++ more.topForms)) =
        runBody ⟨(ofDepth host depth).toCalls, host⟩ scope (expr.topForms ++ more.topForms) :=
    evaluate_ofDepth host depth scope _
  rw [together, runBody_append _ scope _ present]
  exact (agrees_topForms orderly depth scope expr).bind fun _ =>
    agrees_topForms orderly depth scope more

end Engine

theorem Eval.settled_of_bind {α β : Type} {act : Eval α} {next : α → Eval β} {state : State}
    (settled : Settled ((act >>= next).outcome state).1) : Settled (act.outcome state).1 := by
  rcases ran : act.outcome state with ⟨result, after⟩
  cases result with
  | ok value => trivial
  | error fault => rwa [Eval.outcome_bind_error ran] at settled

theorem Session.guardDepth_of_settled {α : Type} {act : Eval α} {state : State} (label : String)
    (settled : Settled (act.outcome state).1) :
    (Session.guardDepth label act).outcome state = act.outcome state := by
  rw [Session.outcome_guardDepth]
  split
  · next ran =>
    rw [ran] at settled
    cases settled
  · rfl

theorem Session.guardDepth_sequence {act next : Eval Value} {state : State} (label : String)
    (settled : Settled ((act >>= fun _ => next).outcome state).1) :
    (act >>= fun _ => next).outcome state =
      match (Session.guardDepth label act).outcome state with
      | (.ok _, after) => (Session.guardDepth label next).outcome after
      | failed => failed := by
  rw [Session.guardDepth_of_settled label (Eval.settled_of_bind settled)]
  rcases ran : act.outcome state with ⟨result, after⟩
  cases result with
  | error fault => exact Eval.outcome_bind_error ran
  | ok value =>
    rw [Eval.outcome_bind_ok ran] at settled ⊢
    exact (Session.guardDepth_of_settled label settled).symm

/-- Two sources that can be parsed are parsed together, with a line end between them, as one program
of all their forms. Executing them together, unless that runs out of depth, is executing the first and,
if it has a value, the second after it. -/
theorem submissions_concatenate {host : Host} (orderly : host.Orderly) (first second : String) :
    (∀ (name : Option String) (limit : Nat) (expr more : Expr),
      Expr.parse first name limit = .ok expr → Expr.parse second name limit = .ok more →
        Expr.readSource first limit = (expr.topForms, none) ∧
        Expr.readSource second limit = (more.topForms, none) ∧
        Expr.readSource (first ++ "\n" ++ second) limit = (expr.topForms ++ more.topForms, none) ∧
        Expr.parse (first ++ "\n" ++ second) name limit =
          .ok (.program (expr.topForms ++ more.topForms))) ∧
    ∀ (root : ScopeId) (usual : String) (name : Option String) (depth : Nat) (state : State)
      (expr more : Expr),
      let execute := fun source =>
        Session.execute Session.reader root usual source name (Engine.ofDepth host depth)
      Session.reader first (Session.submissionName usual name) = .ok expr →
      Session.reader second (Session.submissionName usual name) = .ok more →
      Settled (((Engine.ofDepth host depth).evaluate root
        (.program (expr.topForms ++ more.topForms))).outcome state).1 →
        (execute (first ++ "\n" ++ second)).outcome state =
          match (execute first).outcome state with
          | (.ok _, after) => (execute second).outcome after
          | failed => failed := by
  constructor
  · intro name limit expr more parsed parsedMore
    exact ⟨(Expr.readSource_of_parse parsed).1, (Expr.readSource_of_parse parsedMore).1,
      Expr.readSource_join parsed parsedMore, Expr.parse_join parsed parsedMore⟩
  · intro root usual name depth state expr more execute reads readsMore settled
    cases depth with
    | zero => cases settled
    | succ depth =>
      have readsJoined : Session.reader (first ++ "\n" ++ second) (Session.submissionName usual name) =
          .ok (.program (expr.topForms ++ more.topForms)) := Expr.parse_join reads readsMore
      have present := (Expr.readSource_of_parse readsMore).2
      have agrees := Engine.agrees_join orderly depth root expr present state settled
      simp only [execute, Session.outcome_execute rfl, reads, readsMore, readsJoined]
      rw [Session.guardDepth_of_settled _ settled, ← agrees]
      rw [← agrees] at settled
      exact Session.guardDepth_sequence _ settled

theorem submissions_concatenate_carriage_return :
    let state : State := { scopes := Store.empty.fresh.1.bind 0 "x" .nil }
    let execute := fun source =>
      Session.execute Session.reader 0 "usual" source none (Engine.ofDepth Host.catalogue 3)
    Expr.parse ("x\r" ++ "\n" ++ "(x)") none 1 = .ok (.program [.symbol "x", .list [.symbol "x"]]) ∧
      (execute ("x\r" ++ "\n" ++ "(x)")).outcome state = (execute "(x)").outcome state ∧
      (execute ("(x)" ++ "\n" ++ "x\r")).outcome state =
        (.error (.failure (.notCallable (Value.describe .nil))), state) := by
  intro state execute
  have letter : first? 'x' ['\r'] = some (.symbol, ['x'], ['\r']) := by decide +kernel
  have carriage : first? '\r' [] = some (.blank, ['\r'], []) := by decide +kernel
  have opens : first? '(' ['x', ')'] = some (.openList, ['('], ['x', ')']) := by decide +kernel
  have inner : first? 'x' [')'] = some (.symbol, ['x'], [')']) := by decide +kernel
  have closes : first? ')' [] = some (.closeList, [')'], []) := by decide +kernel
  have symbol : ∀ name limit, Expr.parse "x\r" name limit = .ok (.symbol "x") := by
    intro name limit
    have lexes : Lexes "x\r".toList [⟨.symbol, "x"⟩, ⟨.blank, "\r"⟩] [] :=
      .token letter (.one carriage)
    rw [Expr.parse_of_lexes lexes]
    rfl
  have call : ∀ name limit, Expr.parse "(x)" name (limit + 1) = .ok (.list [.symbol "x"]) := by
    intro name limit
    have lexes : Lexes "(x)".toList [⟨.openList, "("⟩, ⟨.symbol, "x"⟩, ⟨.closeList, ")"⟩] [] :=
      .token opens (.token inner (.one closes))
    rw [Expr.parse_of_lexes lexes]
    rfl
  have reads : Session.reader "x\r" "usual" = .ok (.symbol "x") := symbol _ _
  have readsCall : Session.reader "(x)" "usual" = .ok (.list [.symbol "x"]) := call _ _
  have value : (execute "x\r").outcome state = (.ok .nil, state) := by
    simp only [execute, Session.outcome_execute rfl]
    rw [show Session.submissionName "usual" none = "usual" from rfl, reads]
    rfl
  have refused : (execute "(x)").outcome state =
      (.error (.failure (.notCallable (Value.describe .nil))), state) := by
    simp only [execute, Session.outcome_execute rfl]
    rw [show Session.submissionName "usual" none = "usual" from rfl, readsCall]
    rfl
  obtain ⟨parses, executes⟩ := submissions_concatenate Native.abides_catalogue "x\r" "(x)"
  obtain ⟨_, reversed⟩ := submissions_concatenate Native.abides_catalogue "(x)" "x\r"
  have later := executes 0 "usual" none 3 state _ _ reads readsCall rfl
  have stopped := reversed 0 "usual" none 3 state _ _ readsCall reads rfl
  refine ⟨(parses none 1 _ _ (symbol none 1) (call none 0)).2.2.2, ?_, ?_⟩
  · exact later.trans (by rw [value])
  · exact stopped.trans (by rw [refused])

end HostLisp
