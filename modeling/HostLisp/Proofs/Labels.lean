import HostLisp.Proofs.Containment
import HostLisp.Proofs.RoundTrip
import Mathlib.Tactic.Choose

/-!
Names of sources. A name labels the errors of what is read under it, whether they come from splitting the
source into tokens or from building forms of them, and it makes no other difference: neither to what is
read nor to what evaluation makes of it.
-/

namespace HostLisp

theorem ReadFailure.message_named (error : ReadError) (name : String) :
    ReadFailure.message ⟨error, some name⟩ =
      if name = "" then error.message else name ++ ": " ++ error.message := by
  change (if name.isEmpty then error.message else name ++ ": " ++ error.message) = _
  simp only [String.isEmpty_iff]

/-- Reading that uses a name for nothing but to label its error. -/
def Labelled {α : Type} (read : Option String → Except ReadFailure α) : Prop :=
  ∃ bare : Except ReadError α, ∀ name, read name = bare.mapError fun error => ⟨error, name⟩

theorem Labelled.andThen {α β : Type} {first : Option String → Except ReadFailure α}
    {next : α → Option String → Except ReadFailure β} (labelled : Labelled first)
    (rest : ∀ value, Labelled (next value)) :
    Labelled fun name => first name >>= fun value => next value name := by
  obtain ⟨bare, named⟩ := labelled
  choose bareNext nextNamed using rest
  refine ⟨bare >>= bareNext, fun name => ?_⟩
  simp only [named, nextNamed]
  cases bare <;> rfl

theorem labelled_tokenize (source : String) : Labelled fun name => tokenize source name := by
  unfold tokenize
  dsimp only
  cases (Token.scan source).unterminated with
  | some offset => exact ⟨.error (.unterminatedString offset), fun name => rfl⟩
  | none => exact ⟨.ok (Token.scan source).tokens, fun name => rfl⟩

theorem labelled_parseTokens (tokens : List Token) (limit : Nat) :
    Labelled fun name => Expr.parseTokens tokens name limit := by
  unfold Expr.parseTokens Expr.ofOutcome
  cases (Expr.readForms tokens limit).2 with
  | some error => exact ⟨.error error, fun name => rfl⟩
  | none =>
    refine ⟨Expr.ofForms (Expr.readForms tokens limit).1, fun name => ?_⟩
    cases Expr.ofForms (Expr.readForms tokens limit).1 <;> rfl

theorem Expr.parse_eq_bind (source : String) (name : Option String) (limit : Nat) :
    parse source name limit =
      tokenize source name >>= fun tokens => parseTokens tokens name limit := by
  unfold parse readSource tokenize parseTokens
  dsimp only
  cases (Token.scan source).unterminated <;> rfl

theorem labelled_parse (source : String) (limit : Nat) :
    Labelled fun name => Expr.parse source name limit := by
  simp only [Expr.parse_eq_bind]
  exact (labelled_tokenize source).andThen fun tokens => labelled_parseTokens tokens limit

/-- What is read without a name, and what is read under one: the same, or failures of the same class, the
one with the name in front of the message of the other unless the name is empty. -/
structure Labels {α : Type} (name : String) (bare labelled : Except ReadFailure α) : Prop where
  values : ∀ value, labelled = .ok value ↔ bare = .ok value
  failures : ∀ failure, bare = .error failure → failure.sourceName = none ∧
    ∃ told, labelled = .error told ∧
      (Failure.read told).className = (Failure.read failure).className ∧
      told.message = (if name = "" then failure.message else name ++ ": " ++ failure.message) ∧
      told.sourceName = some name

theorem Labelled.labels {α : Type} {read : Option String → Except ReadFailure α}
    (labelled : Labelled read) (name : String) : Labels name (read none) (read (some name)) := by
  obtain ⟨bare, named⟩ := labelled
  rw [named, named]
  cases bare with
  | ok value => exact ⟨fun other => Iff.rfl, fun failure failed => nomatch failed⟩
  | error error =>
    refine ⟨fun value => iff_of_false nofun nofun, fun failure failed => ?_⟩
    cases failed
    exact ⟨rfl, ⟨error, some name⟩, rfl, rfl, ReadFailure.message_named error name, rfl⟩

inductive Renames (first second : String) : Except Fault Value → Except Fault Value → Prop where
  | same (outcome : Except Fault Value) : Renames first second outcome outcome
  | read (error : ReadError) : Renames first second
      (.error (.failure (.read ⟨error, some first⟩))) (.error (.failure (.read ⟨error, some second⟩)))
  | tooDeep : Renames first second
      (.error (.failure (.tooDeep first))) (.error (.failure (.tooDeep second)))

theorem Session.guardDepth_renames (first second : String) (act : Eval Value) (state : State) :
    let run := fun label => (guardDepth label act).outcome state
    Renames first second (run first).1 (run second).1 ∧ (run first).2 = (run second).2 := by
  simp only [outcome_guardDepth]
  rcases act.outcome state with ⟨(failure | cause) | value, after⟩
  · exact ⟨.same _, rfl⟩
  · cases cause with
    | recursion => exact ⟨.tooDeep, rfl⟩
    | _ => exact ⟨.same _, rfl⟩
  · exact ⟨.same _, rfl⟩

theorem Session.execute_renames (engine : Engine) (root : ScopeId) (usual source : String) (state : State)
    (first second : Option String) :
    let run := fun name => (execute reader root usual source name engine).outcome state
    Renames (submissionName usual first) (submissionName usual second) (run first).1 (run second).1 ∧
      (run first).2 = (run second).2 := by
  intro run
  obtain ⟨bare, named⟩ := labelled_parse source Expr.nestingLimit
  simp only [run, outcome_execute rfl, reader, named]
  cases bare with
  | ok expr => exact guardDepth_renames _ _ _ state
  | error error => exact ⟨.read error, rfl⟩

/-- A source is read under a name as it is without one; if it cannot be read, the failure is of the same
class, and its message has the name in front, once, unless the name is empty. That is so for splitting into
tokens and for reading these, which reading a source consists of. A submission ends under two names in
the same state and in the same outcome, but for the name that its failure tells. -/
theorem source_names_label (name : String) (limit : Nat) :
    (∀ source, Labels name (Expr.parse source none limit) (Expr.parse source (some name) limit)) ∧
    (∀ source, Labels name (tokenize source none) (tokenize source (some name))) ∧
    (∀ tokens, Labels name (Expr.parseTokens tokens none limit)
      (Expr.parseTokens tokens (some name) limit)) ∧
    (∀ source label, Expr.parse source label limit =
      tokenize source label >>= fun tokens => Expr.parseTokens tokens label limit) ∧
    ∀ (engine : Engine) (root : ScopeId) (usual source : String) (state : State)
      (first second : Option String),
      let run := fun name => (Session.execute Session.reader root usual source name engine).outcome state
      Renames (Session.submissionName usual first) (Session.submissionName usual second)
        (run first).1 (run second).1 ∧ (run first).2 = (run second).2 := by
  refine ⟨fun source => ?_, fun source => ?_, fun tokens => ?_, fun source label => ?_, ?_⟩
  · exact (labelled_parse source limit).labels name
  · exact (labelled_tokenize source).labels name
  · exact (labelled_parseTokens tokens limit).labels name
  · exact Expr.parse_eq_bind source label limit
  · exact Session.execute_renames

theorem source_names_label_both :
    (∃ failure, Expr.parse ")" (some "file") = .error failure ∧
      (Failure.read failure).className = "ParensSyntaxError" ∧
      failure.message = "file: unexpected ')'") ∧
    ∃ failure, Expr.parse "\"" (some "file") = .error failure ∧
      (Failure.read failure).className = "ParensLexError" ∧
      failure.message = "file: unterminated string at 0" := by
  obtain ⟨parses, -⟩ := source_names_label "file" Expr.nestingLimit
  have closes : Token.first? ')' [] = some (.closeList, [')'], []) := by decide +kernel
  have bracket : Expr.parse ")" none = .error ⟨.unexpectedCloser ")", none⟩ := by
    have lexes : Token.Lexes ")".toList [⟨.closeList, ")"⟩] [] := .one closes
    rw [Expr.parse_of_lexes lexes]
    rfl
  have opens : Expr.parse "\"" none = .error ⟨.unterminatedString 0, none⟩ := by
    have endless : Token.scan "\"" = ⟨[], some 0⟩ := by
      rw [Token.scan, Token.scanFrom.eq_def]
      rfl
    rw [Expr.parse, Expr.readSource, endless]
    rfl
  obtain ⟨-, failure, named, sort, text, -⟩ := (parses ")").failures _ bracket
  obtain ⟨-, unended, namedToo, sortToo, textToo, -⟩ := (parses "\"").failures _ opens
  exact ⟨⟨failure, named, sort, text⟩, unended, namedToo, sortToo, textToo⟩

end HostLisp
