import HostLisp.Proofs.Containment
import HostLisp.Proofs.RoundTrip
import HostLisp.Proofs.Unterminated

/-!
What string literals denote. The lexer takes each backslash together with the character after it,
whereas a literal is read by replacing every backslash in front of a double quote or of an `n`. The
two disagree about runs of backslashes, and only the runs that can be left over occur in a value.
-/

namespace HostLisp

open Token

/-! ### Texts as runs of backslashes -/

@[elab_as_elim]
theorem backslash_runs {motive : List Char → Prop} (last : ∀ k, motive (List.replicate k '\\'))
    (run : ∀ k c rest, c ≠ '\\' → motive rest → motive (List.replicate k '\\' ++ c :: rest))
    (cs : List Char) : motive cs := by
  have behind : ∀ k, motive (List.replicate k '\\' ++ cs) := by
    induction cs with
    | nil =>
      intro k
      rw [List.append_nil]
      exact last k
    | cons c cs ih =>
      intro k
      by_cases escape : c = '\\'
      · rw [escape, List.append_cons, ← List.replicate_succ']
        exact ih (k + 1)
      · exact run k c cs escape (ih 0)
  exact behind 0

theorem backslashes_replicate (k : Nat) : backslashes (List.replicate k '\\') = k := by
  induction k with
  | zero => rfl
  | succ k ih => rw [List.replicate_succ', backslashes_concat, if_pos rfl, ih]

theorem backslashes_append {c : Char} (plain : c ≠ '\\') (front rest : List Char) :
    backslashes (front ++ c :: rest) = backslashes rest := by
  induction rest using List.reverseRecOn with
  | nil => rw [backslashes_concat, if_neg plain]; rfl
  | append_singleton rest d ih =>
    rw [← List.cons_append, ← List.append_assoc, backslashes_concat, backslashes_concat, ih]

theorem run_eq_append_iff {c d : Char} {k : Nat} {rest front back : List Char} (plain : d ≠ '\\') :
    List.replicate k '\\' ++ c :: rest = front ++ d :: back ↔
      (front = List.replicate k '\\' ∧ c = d ∧ rest = back) ∨
        ∃ middle, front = List.replicate k '\\' ++ c :: middle ∧ rest = middle ++ d :: back := by
  constructor
  · intro split
    obtain ⟨middle, rfl, behind⟩ | ⟨middle, inside, behind⟩ := List.append_eq_append_iff.mp split
    · cases middle with
      | nil =>
        cases behind
        exact .inl ⟨List.append_nil _, rfl, rfl⟩
      | cons first middle =>
        cases behind
        exact .inr ⟨middle, rfl, rfl⟩
    · cases middle with
      | nil =>
        cases behind
        exact .inl ⟨by rw [inside, List.append_nil], rfl, rfl⟩
      | cons first middle =>
        cases behind
        have within : d ∈ List.replicate k '\\' := by simp [inside]
        exact absurd (List.eq_of_mem_replicate within) plain
  · rintro (⟨rfl, rfl, rfl⟩ | ⟨middle, rfl, rfl⟩)
    · rfl
    · rw [List.append_assoc, List.cons_append]

namespace Token

/-! ### What stands between double quotes -/

theorem StringBody.escaped_iff {c : Char} {body : List Char} :
    StringBody ('\\' :: c :: body) ↔ StringBody body := by
  refine ⟨fun string => ?_, .escaped c⟩
  cases string with
  | escaped _ rest => exact rest
  | plain _ unescaped _ => exact absurd rfl unescaped

theorem stringBody_replicate (k : Nat) : StringBody (List.replicate k '\\') ↔ k % 2 = 0 := by
  induction k using Nat.twoStepInduction with
  | zero => exact iff_of_true .done rfl
  | one =>
    refine iff_of_false (fun string => ?_) (by decide)
    cases string with
    | plain _ unescaped _ => exact unescaped rfl
  | more k ih _ =>
    rw [List.replicate_succ, List.replicate_succ, StringBody.escaped_iff, ih, Nat.add_mod_right]

/-- Between double quotes, an odd run of backslashes takes the character behind it along. -/
theorem stringBody_run {c : Char} (plain : c ≠ '\\') (k : Nat) (rest : List Char) :
    StringBody (List.replicate k '\\' ++ c :: rest) ↔ (c = '"' → k % 2 = 1) ∧ StringBody rest := by
  induction k using Nat.twoStepInduction with
  | zero =>
    constructor
    · intro string
      cases string with
      | escaped _ _ => exact absurd rfl plain
      | plain unquoted _ rest => exact ⟨fun quote => absurd quote unquoted, rest⟩
    · rintro ⟨odd, rest⟩
      exact .plain (fun quote => nomatch odd quote) plain rest
  | one => exact StringBody.escaped_iff.trans (iff_and_self.mpr fun _ _ => rfl)
  | more k ih _ =>
    rw [List.replicate_succ, List.replicate_succ, List.cons_append, List.cons_append,
      StringBody.escaped_iff, ih, Nat.add_mod_right]

end Token

namespace Expr

/-! ### The two replacements -/

section

variable {letter replacement c : Char}

theorem unescape_plain (plain : c ≠ '\\') (rest : List Char) :
    unescape letter replacement (c :: rest) = c :: unescape letter replacement rest := by
  cases rest with
  | nil => rfl
  | cons d rest => rw [unescape, if_neg fun both => plain both.1]

theorem unescape_kept {cs : List Char} (kept : cs.head? ≠ some letter) :
    unescape letter replacement (c :: cs) = c :: unescape letter replacement cs := by
  cases cs with
  | nil => rfl
  | cons d cs => rw [unescape, if_neg fun both => kept (congrArg some both.2)]

variable (other : letter ≠ '\\')
include other

theorem unescape_replicate (k : Nat) :
    unescape letter replacement (List.replicate k '\\') = List.replicate k '\\' := by
  induction k with
  | zero => rfl
  | succ k ih =>
    have kept : (List.replicate k '\\').head? ≠ some letter := by
      cases k with
      | zero => exact nofun
      | succ k => exact fun same => other (Option.some.inj same).symm
    rw [List.replicate_succ, unescape_kept kept, ih]

theorem unescape_run (plain : c ≠ '\\') {k : Nat} (kept : c = letter → k = 0) (rest : List Char) :
    unescape letter replacement (List.replicate k '\\' ++ c :: rest) =
      List.replicate k '\\' ++ c :: unescape letter replacement rest := by
  induction k with
  | zero => exact unescape_plain plain rest
  | succ k ih =>
    have different : c ≠ letter := fun same => nomatch kept same
    have ahead : (List.replicate k '\\' ++ c :: rest).head? ≠ some letter := by
      cases k with
      | zero => exact fun same => different (Option.some.inj same)
      | succ k => exact fun same => other (Option.some.inj same).symm
    rw [List.replicate_succ, List.cons_append, unescape_kept ahead,
      ih fun same => absurd same different, List.cons_append]

theorem unescape_letter (k : Nat) (rest : List Char) :
    unescape letter replacement (List.replicate (k + 1) '\\' ++ letter :: rest) =
      List.replicate k '\\' ++ replacement :: unescape letter replacement rest := by
  induction k with
  | zero => exact if_pos ⟨rfl, rfl⟩
  | succ k ih =>
    have ahead : (List.replicate (k + 1) '\\' ++ letter :: rest).head? ≠ some letter :=
      fun same => other (Option.some.inj same).symm
    rw [List.replicate_succ, List.cons_append, unescape_kept ahead, ih, List.replicate_succ,
      List.cons_append]

end

def meaning (body : List Char) : List Char := unescape 'n' '\n' (unescape '"' '"' body)

theorem unwrap_quoted (body : List Char) : unwrap ('"' :: (body ++ ['"'])) = body := by
  have last : ('"' :: (body ++ ['"'])).getLast? = some '"' := by
    rw [← List.cons_append, List.getLast?_concat]
  unfold unwrap
  rw [if_pos ⟨by simp, rfl, last⟩, List.tail_cons, List.dropLast_concat]

theorem literalText_quoted (body : List Char) :
    literalText (String.ofList ('"' :: (body ++ ['"']))) = String.ofList (meaning body) := by
  rw [literalText, String.toList_ofList, unwrap_quoted, meaning]

theorem meaning_replicate (k : Nat) : meaning (List.replicate k '\\') = List.replicate k '\\' := by
  unfold meaning
  rw [unescape_replicate (by decide), unescape_replicate (by decide)]

theorem meaning_run {c : Char} (plain : c ≠ '\\') {k : Nat} (quote : c = '"' → k = 0)
    (letter : c = 'n' → k = 0) (rest : List Char) :
    meaning (List.replicate k '\\' ++ c :: rest) = List.replicate k '\\' ++ c :: meaning rest := by
  unfold meaning
  rw [unescape_run (by decide) plain quote, unescape_run (by decide) plain letter]

theorem meaning_quote (k : Nat) (rest : List Char) :
    meaning (List.replicate (k + 1) '\\' ++ '"' :: rest) =
      List.replicate k '\\' ++ '"' :: meaning rest := by
  unfold meaning
  rw [unescape_letter (by decide),
    unescape_run (by decide) (by decide) fun same => absurd same (by decide)]

theorem meaning_letter (k : Nat) (rest : List Char) :
    meaning (List.replicate (k + 1) '\\' ++ 'n' :: rest) =
      List.replicate k '\\' ++ '\n' :: meaning rest := by
  unfold meaning
  rw [unescape_run (by decide) (by decide) fun same => absurd same (by decide),
    unescape_letter (by decide)]

end Expr

open HostLisp.Expr

/-! ### What literals denote -/

/-- A text in which no backslash stands right before an `n`, and in which every run of backslashes
right before a double quote or at the end is even. -/
structure Denotable (cs : List Char) : Prop where
  letters : ∀ front back, cs ≠ front ++ '\\' :: 'n' :: back
  quotes : ∀ front back, cs = front ++ '"' :: back → backslashes front % 2 = 0
  ending : backslashes cs % 2 = 0

theorem letters_iff {cs : List Char} :
    (∀ front back, cs ≠ front ++ '\\' :: 'n' :: back) ↔
      ∀ front back, cs = front ++ 'n' :: back → backslashes front = 0 := by
  constructor
  · intro letters front back split
    cases front using List.reverseRecOn with
    | nil => rfl
    | append_singleton front d =>
      rw [backslashes_concat, if_neg]
      rintro rfl
      rw [List.append_assoc] at split
      exact letters front back split
  · intro letters front back split
    rw [List.append_cons] at split
    have empty := letters _ back split
    rw [backslashes_concat, if_pos rfl] at empty
    cases empty

theorem denotable_replicate (k : Nat) : Denotable (List.replicate k '\\') ↔ k % 2 = 0 := by
  constructor
  · intro denotable
    have even := denotable.ending
    rwa [backslashes_replicate] at even
  · intro even
    have other : ∀ c ≠ '\\', c ∉ List.replicate k '\\' := fun c plain inside =>
      plain (List.eq_of_mem_replicate inside)
    refine ⟨fun front back split => ?_, fun front back split => ?_, ?_⟩
    · exact other 'n' (by decide) (by simp [split])
    · exact absurd (by simp [split]) (other '"' (by decide))
    · rwa [backslashes_replicate]

theorem forall_runs_iff {c d : Char} (holds : Nat → Prop) (plain : c ≠ '\\') (other : d ≠ '\\')
    (k : Nat) (rest : List Char) :
    (∀ front back,
        List.replicate k '\\' ++ c :: rest = front ++ d :: back → holds (backslashes front)) ↔
      (c = d → holds k) ∧ ∀ front back, rest = front ++ d :: back → holds (backslashes front) := by
  constructor
  · intro all
    constructor
    · rintro rfl
      rw [← backslashes_replicate k]
      exact all _ rest rfl
    · rintro front back rfl
      rw [← backslashes_append plain (List.replicate k '\\')]
      refine all _ back ?_
      rw [List.append_assoc, List.cons_append]
  · rintro ⟨first, others⟩ front back split
    obtain ⟨rfl, same, -⟩ | ⟨middle, rfl, behind⟩ := (run_eq_append_iff other).mp split
    · rw [backslashes_replicate]
      exact first same
    · rw [backslashes_append plain]
      exact others middle back behind

theorem denotable_run {c : Char} (plain : c ≠ '\\') (k : Nat) (rest : List Char) :
    Denotable (List.replicate k '\\' ++ c :: rest) ↔
      (c = 'n' → k = 0) ∧ (c = '"' → k % 2 = 0) ∧ Denotable rest := by
  have letters := forall_runs_iff (· = 0) plain (by decide : 'n' ≠ '\\') k rest
  have quotes := forall_runs_iff (· % 2 = 0) plain (by decide : '"' ≠ '\\') k rest
  constructor
  · intro denotable
    obtain ⟨letter, others⟩ := letters.mp (letters_iff.mp denotable.letters)
    obtain ⟨quote, quotes⟩ := quotes.mp denotable.quotes
    have even := denotable.ending
    rw [backslashes_append plain] at even
    exact ⟨letter, quote, letters_iff.mpr others, quotes, even⟩
  · rintro ⟨letter, quote, denotable⟩
    refine ⟨letters_iff.mpr (letters.mpr ⟨letter, letters_iff.mp denotable.letters⟩),
      quotes.mpr ⟨quote, denotable.quotes⟩, ?_⟩
    rw [backslashes_append plain]
    exact denotable.ending

theorem denotable_meaning {body : List Char} (string : StringBody body) :
    Denotable (meaning body) := by
  induction body using backslash_runs with
  | last k =>
    rw [meaning_replicate, denotable_replicate]
    exact (stringBody_replicate k).mp string
  | run k c rest plain ih =>
    obtain ⟨odd, string⟩ := (stringBody_run plain k rest).mp string
    have denotable := ih string
    cases k with
    | zero =>
      rw [meaning_run plain (fun _ => rfl) (fun _ => rfl), denotable_run plain]
      exact ⟨fun _ => rfl, fun _ => rfl, denotable⟩
    | succ k =>
      by_cases quote : c = '"'
      · subst quote
        rw [meaning_quote, denotable_run plain]
        exact ⟨fun same => absurd same (by decide), fun _ => by have := odd rfl; omega, denotable⟩
      · by_cases letter : c = 'n'
        · subst letter
          rw [meaning_letter, denotable_run (by decide)]
          exact ⟨fun same => absurd same (by decide), fun same => absurd same (by decide), denotable⟩
        · rw [meaning_run plain (absurd · quote) (absurd · letter), denotable_run plain]
          exact ⟨(absurd · letter), (absurd · quote), denotable⟩

theorem exists_body {text : List Char} (denotable : Denotable text) :
    ∃ body, StringBody body ∧ meaning body = text := by
  induction text using backslash_runs with
  | last k =>
    refine ⟨List.replicate k '\\', (stringBody_replicate k).mpr ?_, meaning_replicate k⟩
    exact (denotable_replicate k).mp denotable
  | run k c rest plain ih =>
    obtain ⟨letter, even, denotable⟩ := (denotable_run plain k rest).mp denotable
    obtain ⟨body, string, rfl⟩ := ih denotable
    by_cases quote : c = '"'
    · subst quote
      refine ⟨List.replicate (k + 1) '\\' ++ '"' :: body, ?_, meaning_quote k body⟩
      exact (stringBody_run plain (k + 1) body).mpr ⟨fun _ => by have := even rfl; omega, string⟩
    · refine ⟨List.replicate k '\\' ++ c :: body, ?_, meaning_run plain (absurd · quote) letter body⟩
      exact (stringBody_run plain k body).mpr ⟨(absurd · quote), string⟩

inductive Escaped : List Char → List Char → Prop where
  | done : Escaped [] []
  | quote {text body : List Char} (rest : Escaped text body) :
      Escaped ('"' :: text) ('\\' :: '"' :: body)
  | newline {text body : List Char} (rest : Escaped text body) :
      Escaped ('\n' :: text) ('\\' :: 'n' :: body)
  | plain {c : Char} {text body : List Char} (unquoted : c ≠ '"') (rest : Escaped text body) :
      Escaped (c :: text) (c :: body)

theorem Escaped.means {text body : List Char} (escaped : Escaped text body) (free : '\\' ∉ text) :
    StringBody body ∧ meaning body = text := by
  induction escaped with
  | done => exact ⟨.done, rfl⟩
  | quote _ ih =>
    obtain ⟨string, rfl⟩ := ih fun inside => free (.tail _ inside)
    exact ⟨.escaped '"' string, meaning_quote 0 _⟩
  | newline _ ih =>
    obtain ⟨string, rfl⟩ := ih fun inside => free (.tail _ inside)
    exact ⟨.escaped 'n' string, meaning_letter 0 _⟩
  | @plain c _ _ unquoted _ ih =>
    obtain ⟨string, rfl⟩ := ih fun inside => free (.tail _ inside)
    have unescaped : c ≠ '\\' := by
      rintro rfl
      exact free List.mem_cons_self
    exact ⟨.plain unquoted unescaped string,
      meaning_run unescaped (fun _ => rfl) (fun _ => rfl) _⟩

def IsLiteral (source : String) : Prop :=
  ∃ token, tokenize source none = .ok [token] ∧ token.kind = .string

theorem lexes_string {source : String} (string : IsString source.toList) :
    Token.Lexes source.toList [⟨.string, source⟩] [] := by
  have lexes := Token.Lexes.string string []
  rwa [List.append_nil, String.ofList_toList] at lexes

theorem isLiteral_iff {source : String} : IsLiteral source ↔ IsString source.toList := by
  constructor
  · rintro ⟨⟨kind, text⟩, single, rfl⟩
    obtain ⟨whole, texts⟩ := ((tokenize_iff source none _).mp single).texts
    have string : IsString text.toList := (texts _ List.mem_cons_self).2
    rw [List.append_nil, List.flatMap_singleton] at whole
    rwa [← whole]
  · intro string
    exact ⟨_, (tokenize_iff source none _).mpr (lexes_string string), rfl⟩

structure Denotes (source text : String) : Prop where
  literal : IsLiteral source
  value : ∀ (host : Host) (depth : Nat) (root : ScopeId) (usual : String) (name : Option String)
    (state : State),
    (Session.execute Session.reader root usual source name
      (Engine.ofDepth host (depth + 1))).outcome state = (.ok (.text text), state)

theorem Session.execute_literal {source : String} (string : IsString source.toList) (host : Host)
    (depth : Nat) (root : ScopeId) (usual : String) (name : Option String) (state : State) :
    (execute reader root usual source name (Engine.ofDepth host (depth + 1))).outcome state =
      (.ok (.text (literalText source)), state) := by
  have reads : reader source (submissionName usual name) = .ok (.string source) := by
    rw [reader, Expr.parse_of_lexes (lexes_string string)]
    rfl
  rw [outcome_execute rfl, reads]
  rfl

theorem denotes_iff {source text : String} :
    Denotes source text ↔ IsString source.toList ∧ literalText source = text := by
  constructor
  · intro denotes
    have string := isLiteral_iff.mp denotes.literal
    have here := denotes.value Host.catalogue 0 0 "" none (Session.initial [])
    rw [Session.execute_literal string] at here
    injection here with same
    injection same with same
    injection same with same
    exact ⟨string, same⟩
  · rintro ⟨string, rfl⟩
    exact ⟨isLiteral_iff.mpr string, Session.execute_literal string⟩

theorem denotes_quoted {body : List Char} (string : StringBody body) :
    Denotes (String.ofList ('"' :: (body ++ ['"']))) (String.ofList (meaning body)) := by
  refine denotes_iff.mpr ⟨?_, literalText_quoted body⟩
  rw [String.toList_ofList]
  exact ⟨body, string, rfl⟩

/-- Every literal denotes one text, and the texts denoted are those whose runs of backslashes can be
left over. A text without backslashes is written with each double quote, and any line end, escaped. -/
theorem string_literals_denote :
    (∀ source, IsLiteral source → ∃ text, Denotes source text) ∧
      (∀ text, (∃ source, Denotes source text) ↔ Denotable text.toList) ∧
      ∀ text spelled, '\\' ∉ text.toList → Escaped text.toList spelled →
        Denotes (String.ofList ('"' :: (spelled ++ ['"']))) text := by
  refine ⟨fun source literal => ?_, fun text => ⟨?_, fun denotable => ?_⟩, ?_⟩
  · exact ⟨_, denotes_iff.mpr ⟨isLiteral_iff.mp literal, rfl⟩⟩
  · rintro ⟨source, denotes⟩
    obtain ⟨⟨body, string, quoted⟩, rfl⟩ := denotes_iff.mp denotes
    rw [← String.ofList_toList (s := source), ← quoted, literalText_quoted, String.toList_ofList]
    exact denotable_meaning string
  · obtain ⟨body, string, meant⟩ := exists_body denotable
    have denotes := denotes_quoted string
    rw [meant, String.ofList_toList] at denotes
    exact ⟨_, denotes⟩
  · intro text spelled free escaped
    obtain ⟨string, meant⟩ := escaped.means free
    have denotes := denotes_quoted string
    rwa [meant, String.ofList_toList] at denotes

theorem string_literals_denote_quotation :
    Denotes "\"say \\\"hi\\\"\\n\"" "say \"hi\"\n" ∧ (∃ source, Denotes source "\\\\\"") ∧
      (¬∃ source, Denotes source "\\n") ∧ ¬∃ source, Denotes source "\\\"" := by
  obtain ⟨-, denoted, spelled⟩ := string_literals_denote
  refine ⟨?_, (denoted "\\\\\"").mpr ?_, fun source => ?_, fun source => ?_⟩
  · have escaped : Escaped "say \"hi\"\n".toList "say \\\"hi\\\"\\n".toList := by
      refine .plain (by decide) (.plain (by decide) (.plain (by decide) (.plain (by decide) ?_)))
      exact .quote (.plain (by decide) (.plain (by decide) (.quote (.newline .done))))
    exact spelled "say \"hi\"\n" _ (by decide) escaped
  · refine (denotable_run (by decide) 2 []).mpr ⟨by decide, by decide, ?_⟩
    exact (denotable_replicate 0).mpr rfl
  · exact ((denoted "\\n").mp source).letters [] [] rfl
  · exact absurd (((denoted "\\\"").mp source).quotes ['\\'] [] rfl) (by decide)

end HostLisp
