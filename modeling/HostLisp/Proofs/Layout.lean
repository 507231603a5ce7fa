import HostLisp.Proofs.Concatenation

/-!
Layout separates tokens and does nothing else. Reading passes over it at every place, inside brackets,
after a quote mark and between forms, so the forms, the error and the place of the error are those of
the tokens that remain without it.
-/

namespace HostLisp

open Token

namespace Expr

theorem parseTokens_significant (tokens : List Token) (name : Option String) (limit : Nat) :
    parseTokens (significant tokens) name limit = parseTokens tokens name limit := by
  unfold parseTokens
  rw [readForms_significant]

theorem readForms_congr {tokens others : List Token} (same : significant tokens = significant others)
    (limit : Nat) : readForms tokens limit = readForms others limit :=
  calc
    readForms tokens limit = readForms (significant tokens) limit :=
      (readForms_significant tokens limit).symm
    _ = readForms (significant others) limit := by rw [same]
    _ = readForms others limit := readForms_significant others limit

theorem readSource_of_tokenize {source : String} {name : Option String} {tokens : List Token}
    (tokenized : tokenize source name = .ok tokens) (limit : Nat) :
    readSource source limit = readForms tokens limit :=
  readSource_of_lexes ((tokenize_iff source name tokens).mp tokenized) limit

end Expr

/-- Reading tokens and reading them without their layout come to the same: the same forms, and the same
error if there is one. So sources whose other tokens agree are parsed alike. -/
theorem layout_irrelevant (name : Option String) (limit : Nat) :
    (∀ tokens, Expr.readForms (significant tokens) limit = Expr.readForms tokens limit ∧
      Expr.parseTokens (significant tokens) name limit = Expr.parseTokens tokens name limit) ∧
    ∀ source other tokens others, tokenize source name = .ok tokens →
      tokenize other name = .ok others → significant tokens = significant others →
        Expr.parse source name limit = Expr.parse other name limit := by
  constructor
  · intro tokens
    exact ⟨Expr.readForms_significant tokens limit, Expr.parseTokens_significant tokens name limit⟩
  · intro source other tokens others tokenized tokenizedOther same
    have read : Expr.readSource source limit = Expr.readSource other limit := by
      rw [Expr.readSource_of_tokenize tokenized, Expr.readSource_of_tokenize tokenizedOther]
      exact Expr.readForms_congr same limit
    unfold Expr.parse
    rw [read]

/-- A comment between a quote mark and a bracket that closes nothing does not hide the bracket. -/
theorem layout_irrelevant_after_quote :
    let source := "(a)' ;b\n]"
    let other := "(a)']"
    Expr.parse source none 2 = Expr.parse other none 2 ∧
      Expr.parse source none 2 = .error ⟨.unexpectedCloser "]", none⟩ := by
  intro source other
  have opens : ∀ rest, first? '(' rest = some (.openList, ['('], rest) := fun rest => rfl
  have closes : ∀ rest, first? ')' rest = some (.closeList, [')'], rest) := fun rest => rfl
  have wrong : ∀ rest, first? ']' rest = some (.closeVector, [']'], rest) := fun rest => rfl
  have quote : ∀ rest, first? '\x27' rest = some (.quote, ['\x27'], rest) := fun rest => rfl
  have symbol : ∀ rest, first? 'a' (')' :: rest) = some (.symbol, ['a'], ')' :: rest) := by
    intro rest
    have number : number? ('a' :: ')' :: rest) = none := rfl
    have plain : isDelimiter 'a' = false := by decide +kernel
    have stop : continuesAtom ')' = false := by decide +kernel
    rw [first?_atom plain (by decide), atom, number]
    simp [stop]
  have blank : first? ' ' [';', 'b', '\n', ']'] = some (.blank, [' '], [';', 'b', '\n', ']']) := by
    decide +kernel
  have comment : first? ';' ['b', '\n', ']'] = some (.comment, [';', 'b'], ['\n', ']']) := by
    decide +kernel
  have lexes : Lexes "(a)' ;b\n]".toList [⟨.openList, "("⟩, ⟨.symbol, "a"⟩, ⟨.closeList, ")"⟩,
      ⟨.quote, "\x27"⟩, ⟨.blank, " "⟩, ⟨.comment, ";b"⟩, ⟨.newline, "\n"⟩, ⟨.closeVector, "]"⟩] [] :=
    .token (opens _) (.token (symbol _) (.token (closes _) (.token (quote _) (.token blank
      (.token comment (.token rfl (.one (wrong []))))))))
  have lexesOther : Lexes "(a)']".toList [⟨.openList, "("⟩, ⟨.symbol, "a"⟩, ⟨.closeList, ")"⟩,
      ⟨.quote, "\x27"⟩, ⟨.closeVector, "]"⟩] [] :=
    .token (opens _) (.token (symbol _) (.token (closes _) (.token (quote _) (.one (wrong [])))))
  obtain ⟨-, sources⟩ := layout_irrelevant none 2
  have alike := sources source other _ _ ((tokenize_iff _ _ _).mpr lexes)
    ((tokenize_iff _ _ _).mpr lexesOther) rfl
  refine ⟨alike, alike.trans ?_⟩
  rw [Expr.parse_of_lexes lexesOther]
  rfl

end HostLisp
