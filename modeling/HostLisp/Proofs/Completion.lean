import HostLisp.Proofs.Grammar

/-!
Unfinished input and wrong input. As long as every token is taken, a form and the closing brackets
that are due make a program of it. A closing bracket that does not fit is refused, and nothing after
it is looked at.
-/

namespace HostLisp

namespace Reading

inductive Takes (limit : Nat) : Reading → List Token → Reading → Prop where
  | done (reading : Reading) : Takes limit reading [] reading
  | token {reading next last : Reading} {token : Token} {tokens : List Token}
      (took : reading.step limit token = .ok next) (others : Takes limit next tokens last) :
      Takes limit reading (token :: tokens) last

namespace Takes

variable {limit : Nat} {reading last : Reading} {tokens : List Token}

theorem run_append (takes : Takes limit reading tokens last) (rest : List Token) :
    reading.run limit (tokens ++ rest) = last.run limit rest := by
  induction takes with
  | done reading => rfl
  | token took _ ih =>
    rw [List.cons_append, run_cons_ok took]
    exact ih

theorem front {shorter : List Token} (takes : Takes limit reading tokens last)
    (front : shorter <+: tokens) : ∃ middle, Takes limit reading shorter middle := by
  induction takes generalizing shorter with
  | done reading =>
    rw [List.prefix_nil.mp front]
    exact ⟨reading, .done reading⟩
  | @token reading next last token tokens took _ ih =>
    cases shorter with
    | nil => exact ⟨reading, .done reading⟩
    | cons other shorter =>
      obtain ⟨rfl, inner⟩ := List.cons_prefix_cons.mp front
      obtain ⟨middle, taken⟩ := ih inner
      exact ⟨middle, .token took taken⟩

end Takes

theorem takes_or_refuses (limit : Nat) (tokens : List Token) :
    ∀ reading : Reading, (∃ last, Takes limit reading tokens last) ∨
      ∃ front token rest last error, tokens = front ++ token :: rest ∧
        Takes limit reading front last ∧ last.step limit token = .error error := by
  induction tokens with
  | nil => exact fun reading => .inl ⟨reading, .done reading⟩
  | cons token tokens ih =>
    intro reading
    cases took : reading.step limit token with
    | error error => exact .inr ⟨[], token, tokens, reading, error, rfl, .done reading, took⟩
    | ok next =>
      rcases ih next with ⟨last, taken⟩ | ⟨front, other, rest, last, error, rfl, taken, refused⟩
      · exact .inl ⟨last, .token took taken⟩
      · exact .inr ⟨token :: front, other, rest, last, error, rfl, .token took taken, refused⟩

theorem enter_error {limit : Nat} {reading : Reading} {frame : Frame} {error : ReadError}
    (refused : reading.enter limit frame = .error error) : error = .nestingTooDeep := by
  unfold enter at refused
  split at refused
  · cases refused
  · exact (Except.error.inj refused).symm

theorem step_error {limit : Nat} {reading : Reading} {token : Token} {error : ReadError}
    (lexical : token.kind ∈ Token.Kind.lexical) (refused : reading.step limit token = .error error) :
    error = .nestingTooDeep ∨ error = .unexpectedCloser token.text := by
  obtain ⟨kind, text⟩ := token
  cases kind with
  | comment | blank | newline | number | string | symbol => cases refused
  | openList | openVector | quote => exact .inl (enter_error refused)
  | closeList | closeVector =>
    simp only [step] at refused
    split at refused
    · cases refused
    · exact .inr (Except.error.inj refused).symm
  | foreign label => simp [Token.Kind.lexical] at lexical

def closers : List Frame → List Token
  | [] => []
  | .list _ :: stack => ⟨.closeList, ")"⟩ :: closers stack
  | .vector _ :: stack => ⟨.closeVector, "]"⟩ :: closers stack
  | .quote :: stack => closers stack

/-- A form for a quote mark that may wait for one, and then the closing brackets. -/
def completion (reading : Reading) : List Token := ⟨.symbol, "x"⟩ :: closers reading.stack

theorem run_closers (limit : Nat) (stack : List Frame) (forms : List Expr) :
    ∀ form, ∃ last, (place form stack forms).run limit (closers stack) = (⟨[], last⟩, none) ∧
      last ≠ [] := by
  induction stack with
  | nil => exact fun form => ⟨form :: forms, rfl, List.cons_ne_nil form forms⟩
  | cons frame stack ih =>
    intro form
    cases frame with
    | list items => exact ih (.list (form :: items).reverse)
    | vector items => exact ih (.vector (form :: items).reverse)
    | quote => exact ih (.quote form)

theorem run_completion (limit : Nat) (reading : Reading) :
    ∃ last, reading.run limit reading.completion = (⟨[], last⟩, none) ∧ last ≠ [] :=
  run_closers limit reading.stack reading.forms (.symbol "x")

theorem lexical_closers (stack : List Frame) :
    ∀ token ∈ closers stack, token.kind ∈ Token.Kind.lexical := by
  induction stack with
  | nil => nofun
  | cons frame stack ih =>
    cases frame with
    | list items | vector items =>
      intro token inside
      rcases List.mem_cons.mp inside with rfl | inside
      · simp [Token.Kind.lexical]
      · exact ih token inside
    | quote => exact ih

theorem lexical_completion (reading : Reading) :
    ∀ token ∈ reading.completion, token.kind ∈ Token.Kind.lexical := by
  intro token inside
  rcases List.mem_cons.mp inside with rfl | inside
  · simp [Token.Kind.lexical]
  · exact lexical_closers reading.stack token inside

end Reading

namespace Expr

/-- The lexer can still make tokens that finish a program. -/
def Completable (name : Option String) (limit : Nat) (tokens : List Token) : Prop :=
  ∃ more : List Token, (∀ token ∈ more, token.kind ∈ Token.Kind.lexical) ∧
    ∃ expr, parseTokens (tokens ++ more) name limit = .ok expr

theorem parseTokens_of_run {limit : Nat} {tokens : List Token} {forms : List Expr}
    (ran : Reading.start.run limit tokens = (⟨[], forms⟩, none)) (name : Option String) :
    parseTokens tokens name limit =
      match ofForms forms.reverse with
      | .ok expr => .ok expr
      | .error error => .error ⟨error, name⟩ := by
  unfold parseTokens readForms
  rw [ran]
  rfl

theorem ofForms_ok {forms : List Expr} (some : forms ≠ []) : ∃ expr, ofForms forms = .ok expr := by
  match forms with
  | [form] => exact ⟨form, rfl⟩
  | form :: other :: forms => exact ⟨.program (form :: other :: forms), rfl⟩

theorem completable_of_takes (name : Option String) {limit : Nat} {tokens : List Token}
    {last : Reading} (takes : Reading.start.Takes limit tokens last) :
    Completable name limit tokens := by
  refine ⟨last.completion, last.lexical_completion, ?_⟩
  obtain ⟨forms, ran, present⟩ := last.run_completion limit
  have whole : Reading.start.run limit (tokens ++ last.completion) = (⟨[], forms⟩, none) :=
    (takes.run_append last.completion).trans ran
  have filled : forms.reverse ≠ [] := by simpa using present
  obtain ⟨expr, made⟩ := ofForms_ok filled
  refine ⟨expr, ?_⟩
  rw [parseTokens_of_run whole, made]

theorem parseTokens_of_takes (name : Option String) {limit : Nat} {tokens : List Token}
    {last : Reading} (takes : Reading.start.Takes limit tokens last) :
    (∃ expr, parseTokens tokens name limit = .ok expr) ∨
      parseTokens tokens name limit = .error ⟨.unexpectedEnd, name⟩ := by
  have ran := takes.run_append []
  rw [List.append_nil] at ran
  obtain ⟨stack, forms⟩ := last
  cases stack with
  | cons frame stack =>
    refine .inr ?_
    unfold parseTokens readForms
    rw [ran]
    rfl
  | nil =>
    rw [parseTokens_of_run ran]
    cases made : ofForms forms.reverse with
    | ok expr => exact .inl ⟨expr, rfl⟩
    | error error =>
      by_cases present : forms.reverse = []
      · rw [present] at made
        cases made
        exact .inr rfl
      · obtain ⟨expr, made'⟩ := ofForms_ok present
        rw [made'] at made
        cases made

theorem parseTokens_of_refused (name : Option String) {limit : Nat} {front : List Token}
    {token : Token} {last : Reading} {error : ReadError}
    (takes : Reading.start.Takes limit front last) (refused : last.step limit token = .error error)
    (rest : List Token) :
    parseTokens (front ++ token :: rest) name limit = .error ⟨error, name⟩ := by
  have ran := (takes.run_append (token :: rest)).trans (Reading.run_cons_error refused rest)
  unfold parseTokens readForms
  rw [ran]
  rfl

theorem not_completable_of_refused (name : Option String) {limit : Nat} {front : List Token}
    {token : Token} {last : Reading} {error : ReadError}
    (takes : Reading.start.Takes limit front last) (refused : last.step limit token = .error error)
    (rest : List Token) : ¬Completable name limit (front ++ token :: rest) := by
  rintro ⟨more, _, expr, parsed⟩
  rw [List.append_assoc, List.cons_append, parseTokens_of_refused name takes refused] at parsed
  cases parsed

end Expr

open HostLisp.Expr

/-- Tokens of the lexer that do not make a program, although nesting did not run out, end too early
exactly if more tokens can finish a program. If none can, the parser names the token that ends the
shortest piece which none can finish, and it does so whatever tokens follow. -/
theorem unfinished_or_wrong (tokens : List Token) (name : Option String) (limit : Nat)
    (lexical : ∀ token ∈ tokens, token.kind ∈ Token.Kind.lexical)
    (roomy : parseTokens tokens name limit ≠ .error ⟨.nestingTooDeep, name⟩)
    (fails : ∀ expr, parseTokens tokens name limit ≠ .ok expr) :
    (parseTokens tokens name limit = .error ⟨.unexpectedEnd, name⟩ ↔
      Completable name limit tokens) ∧
    (¬Completable name limit tokens → ∃ front token rest, tokens = front ++ token :: rest ∧
      ¬Completable name limit (front ++ [token]) ∧
      (∀ shorter, shorter <+: front → Completable name limit shorter) ∧
      ∀ more, parseTokens (tokens ++ more) name limit =
        .error ⟨.unexpectedCloser token.text, name⟩) ∧
    ReadError.unexpectedEnd.message = "unexpected end of input" ∧
    ∀ text, (ReadError.unexpectedCloser text).message = "unexpected '" ++ text ++ "'" := by
  rcases Reading.takes_or_refuses limit tokens .start with
    ⟨last, takes⟩ | ⟨front, token, rest, last, error, rfl, takes, refused⟩
  · have completes := completable_of_takes name takes
    have ended := (parseTokens_of_takes name takes).resolve_left fun ⟨expr, parsed⟩ =>
      fails expr parsed
    exact ⟨⟨fun _ => completes, fun _ => ended⟩, fun stuck => absurd completes stuck, rfl, fun _ => rfl⟩
  · have stopped := parseTokens_of_refused name takes refused
    have stuck := not_completable_of_refused name takes refused
    have wrong : error = .unexpectedCloser token.text := by
      rcases Reading.step_error (lexical token (by simp)) refused with deep | closer
      · exact absurd (deep ▸ stopped rest) roomy
      · exact closer
    subst wrong
    refine ⟨⟨fun ended => ?_, fun completes => absurd completes (stuck rest)⟩, fun _ => ?_, rfl,
      fun _ => rfl⟩
    · rw [stopped rest] at ended
      cases ended
    · refine ⟨front, token, rest, rfl, stuck [], ?_, ?_⟩
      · intro shorter inside
        obtain ⟨middle, taken⟩ := takes.front inside
        exact completable_of_takes name taken
      · intro more
        rw [List.append_assoc, List.cons_append]
        exact stopped (rest ++ more)

theorem unfinished_or_wrong_brackets :
    let unfinished : List Token := [⟨.openList, "("⟩, ⟨.quote, "'"⟩, ⟨.newline, "\n"⟩]
    let wrong : List Token := [⟨.openList, "("⟩, ⟨.closeVector, "]"⟩, ⟨.closeList, ")"⟩]
    Completable none 2 unfinished ∧ ¬Completable none 2 wrong ∧
      ∀ more, parseTokens (wrong ++ more) none 2 = .error ⟨.unexpectedCloser "]", none⟩ := by
  intro unfinished wrong
  have early : parseTokens unfinished none 2 = .error ⟨.unexpectedEnd, none⟩ := rfl
  have closed : parseTokens wrong none 2 = .error ⟨.unexpectedCloser "]", none⟩ := rfl
  obtain ⟨waits, _⟩ := unfinished_or_wrong unfinished none 2 (by decide) (by rw [early]; nofun)
    (by rw [early]; nofun)
  obtain ⟨ends, named, _⟩ := unfinished_or_wrong wrong none 2 (by decide) (by rw [closed]; nofun)
    (by rw [closed]; nofun)
  have stuck : ¬Completable none 2 wrong := by
    intro completes
    have ended := ends.mpr completes
    rw [closed] at ended
    cases ended
  obtain ⟨front, token, rest, _, _, _, fails⟩ := named stuck
  have text : "]" = token.text := by
    have same := closed.symm.trans (fails [])
    injection same with same
    injection same with same _
    injection same
  refine ⟨waits.mp early, stuck, fun more => ?_⟩
  rw [fails more, text]

end HostLisp
