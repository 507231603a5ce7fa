import HostLisp.Expr.Reading
import HostLisp.Proofs.Lexemes

/-!
The tokens of a text, put together again, are the text, and each of them has a text of its kind. What
a kind admits is told for all kinds without the lexer.
-/

namespace HostLisp

namespace Token

open Text

def Kind.Admits : Kind → List Char → Prop
  | .newline, cs => cs = ['\n'] ∨ cs = ['\r', '\n']
  | .blank, cs => cs ≠ [] ∧ ∀ c ∈ cs, isBlank c = true ∧ c ≠ '\n'
  | .comment, cs => ∃ remark, ';' :: remark = cs ∧ ∀ c ∈ remark, c ≠ '\n'
  | .openList, cs => cs = ['(']
  | .closeList, cs => cs = [')']
  | .openVector, cs => cs = ['[']
  | .closeVector, cs => cs = [']']
  | .quote, cs => cs = ['\x27']
  | .string, cs => IsString cs
  | .number, cs => IsNumber cs
  | .symbol, cs => IsSymbol cs
  | .foreign _, _ => False

theorem admits_blank {c : Char} (blank : isBlank c = true) (other : c ≠ '\n') (cs : List Char) :
    Kind.blank.Admits (c :: cs.takeWhile continuesBlank) := by
  refine ⟨List.cons_ne_nil _ _, List.forall_mem_cons.mpr ⟨⟨blank, other⟩, ?_⟩⟩
  intro d inside
  have continues := List.all_eq_true.mp List.all_takeWhile d inside
  simpa [continuesBlank] using continues

theorem admits_comment (cs : List Char) :
    Kind.comment.Admits (';' :: cs.takeWhile continuesComment) := by
  refine ⟨_, rfl, fun c inside => ?_⟩
  have continues := List.all_eq_true.mp List.all_takeWhile c inside
  simpa [continuesComment] using continues

theorem admits_mark {c : Char} {kind : Kind} (marks : mark? c = some kind) : kind.Admits [c] := by
  unfold mark? at marks
  grind [Kind.Admits]

theorem Sound.admits {kind : Kind} {cs : List Char} (sound : Sound ⟨kind, String.ofList cs⟩)
    (listed : kind = .number ∨ kind = .string ∨ kind = .symbol) : kind.Admits cs := by
  rcases listed with rfl | rfl | rfl <;> simpa [Sound, Kind.Admits] using sound

theorem atom_kind (c : Char) (cs : List Char) :
    (atom c cs).1 = .number ∨ (atom c cs).1 = .symbol := by
  unfold atom
  split
  · next found => exact .inl (isNumber_of_number? found).1
  · exact .inr rfl

theorem admits_first? {c : Char} {cs chars rest : List Char} {kind : Kind}
    (found : first? c cs = some (kind, chars, rest)) : kind.Admits chars := by
  have sound := sound_first? found
  unfold first? at found
  split at found
  · next newline =>
    cases found
    exact .inl (congrArg (fun c => [c]) newline)
  next newline =>
  split at found
  · next lineEnd =>
    cases found
    exact .inr (congrArg (fun c => [c, '\n']) lineEnd.1)
  split at found
  · next blank =>
    cases found
    exact admits_blank blank newline cs
  split at found
  · next semicolon =>
    cases found
    subst semicolon
    exact admits_comment cs
  split at found
  · obtain ⟨⟨tail, after⟩, _, same⟩ := Option.map_eq_some_iff.mp found
    cases same
    exact sound.admits (.inr (.inl rfl))
  split at found
  · next marked =>
    cases found
    exact admits_mark marked
  · have kinds := atom_kind c cs
    rw [Option.some.inj found] at kinds
    exact sound.admits (kinds.imp_right .inr)

theorem Lexes.texts {cs rest : List Char} {tokens : List Token} (lexes : Lexes cs tokens rest) :
    tokens.flatMap (·.text.toList) ++ rest = cs ∧
      ∀ token ∈ tokens, token.text ≠ "" ∧ token.kind.Admits token.text.toList := by
  induction lexes with
  | done _ => exact ⟨rfl, List.forall_mem_nil _⟩
  | @token c cs chars after rest kind tokens found _ ih =>
    obtain ⟨whole, each⟩ := ih
    obtain ⟨split, present⟩ := first?_append found
    constructor
    · rw [List.flatMap_cons, List.append_assoc, whole, String.toList_ofList, split]
    · refine List.forall_mem_cons.mpr ⟨⟨?_, ?_⟩, each⟩
      · intro empty
        exact present (by simpa using congrArg String.toList empty)
      · simpa using admits_first? found

end Token

theorem tokenize_iff (source : String) (name : Option String) (tokens : List Token) :
    tokenize source name = .ok tokens ↔ Token.Lexes source.toList tokens [] := by
  constructor
  · intro tokenized
    unfold tokenize at tokenized
    simp only at tokenized
    split at tokenized
    · cases tokenized
    · next ended =>
      cases tokenized
      exact .of_scan (congrArg (Token.Scan.mk (Token.scan source).tokens) ended)
  · intro lexes
    unfold tokenize Token.scan
    rw [lexes.scan rfl]

/-- The texts of the tokens make up the source, none of them is empty, and each is of its kind. -/
theorem tokens_cover_source {source : String} {name : Option String} {tokens : List Token}
    (tokenized : tokenize source name = .ok tokens) :
    String.join (tokens.map Token.text) = source ∧
      ∀ token ∈ tokens, token.text ≠ "" ∧ token.kind.Admits token.text.toList := by
  obtain ⟨whole, each⟩ := ((tokenize_iff source name tokens).mp tokenized).texts
  refine ⟨?_, each⟩
  rw [List.append_nil] at whole
  apply String.toList_injective
  rw [String.toList_join, ← whole]
  simp [List.flatMap, Function.comp_def]

theorem tokens_cover_source_neighbours :
    let source := "1e' \r\n\"\\\"\""
    let tokens : List Token :=
      [⟨.symbol, "1e'"⟩, ⟨.blank, " \r"⟩, ⟨.newline, "\n"⟩, ⟨.string, "\"\\\"\""⟩]
    tokenize source none = .ok tokens ∧ String.join (tokens.map Token.text) = source ∧
      ∀ token ∈ tokens, token.text ≠ "" ∧ token.kind.Admits token.text.toList := by
  intro source tokens
  have atom : Token.first? '1' ['e', '\x27', ' ', '\r', '\n', '"', '\\', '"', '"'] =
      some (.symbol, ['1', 'e', '\x27'], [' ', '\r', '\n', '"', '\\', '"', '"']) := by
    decide +kernel
  have blank : Token.first? ' ' ['\r', '\n', '"', '\\', '"', '"'] =
      some (.blank, [' ', '\r'], ['\n', '"', '\\', '"', '"']) := by decide +kernel
  have newline : Token.first? '\n' ['"', '\\', '"', '"'] =
      some (.newline, ['\n'], ['"', '\\', '"', '"']) := by decide +kernel
  have string : Token.first? '"' ['\\', '"', '"'] =
      some (.string, ['"', '\\', '"', '"'], []) := by decide +kernel
  have lexes : Token.Lexes "1e' \r\n\"\\\"\"".toList
      [⟨.symbol, "1e'"⟩, ⟨.blank, " \r"⟩, ⟨.newline, "\n"⟩, ⟨.string, "\"\\\"\""⟩] [] :=
    .token atom (.token blank (.token newline (.one string)))
  have tokenized := (tokenize_iff source none tokens).mpr lexes
  exact ⟨tokenized, tokens_cover_source tokenized⟩

end HostLisp
