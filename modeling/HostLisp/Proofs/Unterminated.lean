import HostLisp.Failure
import HostLisp.Proofs.Adjacency
import Mathlib.Data.List.DropRight

/-!
Where lexing fails. A text has no tokens of its own only at a double quote that opens a string without
an end, and a string has no end when a backslash takes every later double quote along, that is when the
run of backslashes right before each of them is odd. What stands before such a quote is split as if the
source ended there.
-/

namespace HostLisp

namespace Token

open Text

/-! ### Strings without an end -/

def backslashes (cs : List Char) : Nat := (cs.rtakeWhile (· == '\\')).length

/-- After an opening quote, every double quote is one that a backslash takes along. -/
def Endless (cs : List Char) : Prop := ∀ i : Nat, cs[i]? = some '"' → backslashes (cs.take i) % 2 = 1

theorem backslashes_concat (cs : List Char) (c : Char) :
    backslashes (cs ++ [c]) = if c = '\\' then backslashes cs + 1 else 0 := by
  unfold backslashes
  rw [List.rtakeWhile_concat]
  split <;> simp_all

theorem backslashes_plain {c : Char} (unescaped : c ≠ '\\') (cs : List Char) :
    backslashes (c :: cs) = backslashes cs := by
  induction cs using List.reverseRecOn with
  | nil => rw [← List.nil_append [c], backslashes_concat, if_neg unescaped]; rfl
  | append_singleton cs d ih => rw [← List.cons_append, backslashes_concat, backslashes_concat, ih]

theorem backslashes_escaped (c : Char) (cs : List Char) :
    backslashes ('\\' :: c :: cs) % 2 = backslashes cs % 2 := by
  induction cs using List.reverseRecOn with
  | nil =>
    have one : backslashes ['\\'] = 1 := by decide
    rw [show ['\\', c] = ['\\'] ++ [c] from rfl, backslashes_concat, one]
    split <;> rfl
  | append_singleton cs d ih =>
    rw [← List.cons_append, ← List.cons_append, backslashes_concat, backslashes_concat]
    split <;> omega

namespace Endless

theorem nil : Endless [] := by
  intro i quote
  cases quote

theorem lone_backslash : Endless ['\\'] := by
  intro i quote
  cases i with
  | zero => cases quote
  | succ i => cases quote

theorem not_closed (cs : List Char) : ¬Endless ('"' :: cs) := by
  intro endless
  exact absurd (endless 0 rfl) (by decide : ¬backslashes [] % 2 = 1)

theorem plain_iff {c : Char} (unquoted : c ≠ '"') (unescaped : c ≠ '\\') (cs : List Char) :
    Endless (c :: cs) ↔ Endless cs := by
  have shift : ∀ i, backslashes ((c :: cs).take (i + 1)) = backslashes (cs.take i) := fun i =>
    backslashes_plain unescaped (cs.take i)
  constructor
  · intro endless i quote
    exact shift i ▸ endless (i + 1) quote
  · intro endless i quote
    cases i with
    | zero => exact absurd (Option.some.inj quote) unquoted
    | succ i => exact (shift i).symm ▸ endless i quote

theorem escaped_iff (c : Char) (cs : List Char) : Endless ('\\' :: c :: cs) ↔ Endless cs := by
  have shift : ∀ i, backslashes (('\\' :: c :: cs).take (i + 2)) % 2 = backslashes (cs.take i) % 2 :=
    fun i => backslashes_escaped c (cs.take i)
  constructor
  · intro endless i quote
    exact shift i ▸ endless (i + 2) quote
  · intro endless i quote
    match i with
    | 0 => cases quote
    | 1 => exact (by decide : backslashes ['\\'] % 2 = 1)
    | i + 2 => exact (shift i).symm ▸ endless i quote

end Endless

theorem stringTail?_eq_none_iff (cs : List Char) : stringTail? cs = none ↔ Endless cs := by
  fun_induction stringTail? cs with
  | case1 => exact iff_of_true rfl Endless.nil
  | case2 cs => simp [Endless.not_closed]
  | case3 => exact iff_of_true rfl Endless.lone_backslash
  | case4 d ds _ ih => rw [Option.map_eq_none_iff, ih, Endless.escaped_iff]
  | case5 c cs unquoted unescaped ih =>
    rw [Option.map_eq_none_iff, ih, Endless.plain_iff unquoted unescaped]

theorem first?_eq_none_iff (c : Char) (cs : List Char) :
    first? c cs = none ↔ c = '"' ∧ Endless cs := by
  rw [← stringTail?_eq_none_iff]
  constructor
  · intro stuck
    unfold first? at stuck
    split at stuck
    · cases stuck
    split at stuck
    · cases stuck
    split at stuck
    · cases stuck
    split at stuck
    · cases stuck
    split at stuck
    · next quote => exact ⟨quote, Option.map_eq_none_iff.mp stuck⟩
    · split at stuck <;> cases stuck
  · rintro ⟨rfl, endless⟩
    have filled : isBlank '"' = false := by decide +kernel
    simp [first?, filled, endless]

/-! ### What stands before -/

def extent (tokens : List Token) : Nat := (tokens.flatMap (·.text.toList)).length

theorem extent_cons (kind : Kind) (chars : List Char) (tokens : List Token) :
    extent (⟨kind, String.ofList chars⟩ :: tokens) = chars.length + extent tokens := by
  simp [extent]

namespace Lexes

theorem stuck {cs rest : List Char} {tokens : List Token} (lexes : Lexes cs tokens ('"' :: rest))
    (endless : Endless rest) (offset : Nat) :
    scanFrom offset cs = ⟨tokens, some (offset + extent tokens)⟩ := by
  generalize left : '"' :: rest = after at lexes
  induction lexes generalizing offset with
  | done _ =>
    subst left
    have missing := (first?_eq_none_iff '"' rest).mpr ⟨rfl, endless⟩
    rw [scanFrom]
    split
    · rfl
    · next found =>
      rw [missing] at found
      cases found
  | token found _ ih => rw [scanFrom_cons found, ih _ left, extent_cons, Nat.add_assoc]

theorem of_stuck {cs : List Char} {offset p : Nat} {tokens : List Token}
    (scanned : scanFrom offset cs = ⟨tokens, some p⟩) :
    ∃ rest, Lexes cs tokens ('"' :: rest) ∧ Endless rest ∧ p = offset + extent tokens := by
  fun_induction scanFrom offset cs generalizing tokens with
  | case1 => cases scanned
  | case2 offset c cs missing =>
    cases scanned
    obtain ⟨rfl, endless⟩ := (first?_eq_none_iff c cs).mp missing
    exact ⟨cs, .done _, endless, rfl⟩
  | case3 offset c cs kind chars rest found _ after =>
    rename_i others
    simp only [Scan.mk.injEq] at scanned
    obtain ⟨rfl, ended⟩ := scanned
    obtain ⟨left, lexes, endless, reach⟩ := others (congrArg (Scan.mk after.tokens) ended)
    refine ⟨left, .token found lexes, endless, ?_⟩
    rw [reach, extent_cons, Nat.add_assoc]

end Lexes

theorem lexes_before_quote {front rest : List Char} {tokens : List Token} :
    Lexes (front ++ '"' :: rest) tokens ('"' :: rest) ↔
      Lexes front tokens [] ∧ ∀ last ∈ tokens.getLast?, last.kind ≠ .comment := by
  have delimits : isDelimiter '"' = true := by decide +kernel
  have filled : isBlank '"' = false := by decide +kernel
  have stops : ∀ last : Token, Stops last.kind last.text.toList (some '"') ↔
      Stops last.kind last.text.toList none ∧ last.kind ≠ .comment := by
    intro last
    unfold Stops
    split <;> simp_all [continuesBlank]
  rw [lexes_iff, lexes_iff, List.append_left_inj, List.append_nil, List.head?_cons, List.head?_nil]
  simp only [stops, forall_and, and_assoc]

theorem endless_drop_iff (cs : List Char) (n : Nat) :
    Endless (cs.drop n) ↔
      ∀ q, n ≤ q → cs[q]? = some '"' → backslashes ((cs.take q).drop n) % 2 = 1 := by
  unfold Endless
  simp only [List.getElem?_drop, List.take_drop]
  constructor
  · intro endless q beyond quote
    obtain ⟨i, rfl⟩ := Nat.exists_eq_add_of_le beyond
    exact endless i quote
  · intro endless i quote
    exact endless (n + i) (Nat.le_add_right n i) quote

end Token

/-- A double quote at an offset opens a string without an end: the source before it splits into
tokens and does not end in a comment, and each double quote after it has an odd run of backslashes
right before it. -/
structure OpensEndless (source : String) (p : Nat) : Prop where
  quote : source.toList[p]? = some '"'
  before : ∃ tokens, tokenize (String.ofList (source.toList.take p)) = .ok tokens ∧
    ∀ last ∈ tokens.getLast?, last.kind ≠ .comment
  escaped : ∀ q, p < q → source.toList[q]? = some '"' →
    Token.backslashes ((source.toList.take q).drop (p + 1)) % 2 = 1

open Token

theorem Token.scan_stops_iff (source : String) (tokens : List Token) (p : Nat) :
    Token.scan source = ⟨tokens, some p⟩ ↔
      OpensEndless source p ∧ tokenize (String.ofList (source.toList.take p)) = .ok tokens := by
  constructor
  · intro scanned
    obtain ⟨rest, lexes, endless, reach⟩ := Lexes.of_stuck scanned
    obtain ⟨whole, -⟩ := lexes.texts
    rw [Nat.zero_add] at reach
    have taken : source.toList.take p = tokens.flatMap (·.text.toList) := by
      rw [← whole, reach]
      exact List.take_left
    have left : source.toList.drop (p + 1) = rest := by
      rw [← whole, reach, extent, ← List.drop_drop, List.drop_left]
      rfl
    rw [← whole, lexes_before_quote] at lexes
    have tokenized : tokenize (String.ofList (source.toList.take p)) = .ok tokens := by
      rw [tokenize_iff, taken, String.toList_ofList]
      exact lexes.1
    refine ⟨⟨?_, ⟨tokens, tokenized, lexes.2⟩, ?_⟩, tokenized⟩
    · rw [← whole, reach, extent, List.getElem?_append_right (Nat.le_refl _), Nat.sub_self]
      rfl
    · exact (endless_drop_iff _ _).mp (left ▸ endless)
  · rintro ⟨⟨quote, ⟨same, tokenizedSame, last⟩, escaped⟩, tokenized⟩
    obtain rfl : tokens = same := Except.ok.inj (tokenized.symm.trans tokenizedSame)
    obtain ⟨within, here⟩ := List.getElem?_eq_some_iff.mp quote
    have endless := (endless_drop_iff source.toList (p + 1)).mpr escaped
    have whole : source.toList.take p ++ '"' :: source.toList.drop (p + 1) = source.toList := by
      rw [← here, List.getElem_cons_drop, List.take_append_drop]
    rw [tokenize_iff, String.toList_ofList] at tokenized
    have lexes : Lexes (source.toList.take p ++ '"' :: source.toList.drop (p + 1)) tokens
        ('"' :: source.toList.drop (p + 1)) := lexes_before_quote.mpr ⟨tokenized, last⟩
    rw [whole] at lexes
    have reach : extent tokens = p := by
      have texts := tokenized.texts.1
      rw [List.append_nil] at texts
      rw [extent, texts, List.length_take, Nat.min_eq_left (Nat.le_of_lt within)]
    have scanned := lexes.stuck endless 0
    rwa [Nat.zero_add, reach] at scanned

theorem tokenize_fails_iff (source : String) (name : Option String) (failure : ReadFailure) :
    tokenize source name = .error failure ↔
      ∃ p, OpensEndless source p ∧ failure = ⟨.unterminatedString p, name⟩ := by
  have fails : tokenize source name = .error failure ↔
      ∃ p, (Token.scan source).unterminated = some p ∧ failure = ⟨.unterminatedString p, name⟩ := by
    unfold tokenize
    simp only
    split
    · next p stops => simp [stops, eq_comm]
    · next ended => simp [ended]
  rw [fails]
  refine exists_congr fun p => and_congr_left fun _ => ?_
  constructor
  · intro stops
    exact ((scan_stops_iff source _ p).mp (congrArg (Scan.mk _) stops)).1
  · intro opens
    obtain ⟨tokens, tokenized, -⟩ := opens.before
    rw [(scan_stops_iff source tokens p).mpr ⟨opens, tokenized⟩]

/-- Lexing fails just at a double quote that opens a string without an end, of which there is one at
most, with an error that tells its offset. The tokens found by then are those of the source before it.
No other character of any text stops the lexer. -/
theorem lexing_fails_exactly (source : String) (name : Option String) :
    (∀ failure, tokenize source name = .error failure ↔
      ∃ p, OpensEndless source p ∧ failure = ⟨.unterminatedString p, name⟩) ∧
    (∀ p, (Failure.read ⟨.unterminatedString p, name⟩).className = "ParensLexError" ∧
      (ReadError.unterminatedString p).message = "unterminated string at " ++ toString p) ∧
    (∀ p q, OpensEndless source p → OpensEndless source q → p = q) ∧
    (∀ p, OpensEndless source p →
      tokenize (String.ofList (source.toList.take p)) name = .ok (Token.scan source).tokens) ∧
    ∀ (c : Char) (cs : List Char), Token.first? c cs = none ↔ c = '"' ∧ Endless cs := by
  refine ⟨tokenize_fails_iff source name, fun p => ⟨rfl, ?_⟩, ?_, ?_, first?_eq_none_iff⟩
  · unfold ReadError.message
    simp only [toString]
  · intro p q opens opensToo
    have failsAt := (tokenize_fails_iff source name _).mpr ⟨p, opens, rfl⟩
    have failsToo := (tokenize_fails_iff source name _).mpr ⟨q, opensToo, rfl⟩
    have same := Except.error.inj (failsAt.symm.trans failsToo)
    exact ReadError.unterminatedString.inj (congrArg ReadFailure.error same)
  · intro p opens
    obtain ⟨tokens, tokenized, -⟩ := opens.before
    have stops := (scan_stops_iff source tokens p).mpr ⟨opens, tokenized⟩
    rw [stops, tokenize_iff]
    rwa [tokenize_iff] at tokenized

theorem lexing_fails_exactly_after_comment :
    let source := ";\"\n\"\\\""
    let tokens : List Token := [⟨.comment, ";\""⟩, ⟨.newline, "\n"⟩]
    OpensEndless source 3 ∧ tokenize source none = .error ⟨.unterminatedString 3, none⟩ ∧
      tokenize (String.ofList (source.toList.take 3)) none = .ok (Token.scan source).tokens ∧
      (Token.scan source).tokens = tokens := by
  intro source tokens
  have characters : source.toList = [';', '"', '\n', '"', '\\', '"'] := by decide +kernel
  have comment : Token.first? ';' ['"', '\n'] = some (.comment, [';', '"'], ['\n']) := by
    decide +kernel
  have newline : Token.first? '\n' [] = some (.newline, ['\n'], []) := by decide +kernel
  have tokenized : tokenize (String.ofList (source.toList.take 3)) = .ok tokens := by
    rw [tokenize_iff, characters, String.toList_ofList]
    exact .token comment (.one newline)
  have opens : OpensEndless source 3 := by
    refine ⟨by rw [characters]; rfl, ⟨tokens, tokenized, by simp [tokens]⟩, ?_⟩
    rw [characters]
    intro q later quote
    have within := (List.getElem?_eq_some_iff.mp quote).1
    simp only [List.length_cons, List.length_nil] at within
    obtain rfl | rfl : q = 4 ∨ q = 5 := by omega
    · cases quote
    · decide
  obtain ⟨fails, -, -, before, -⟩ := lexing_fails_exactly source none
  refine ⟨opens, (fails _).mpr ⟨3, opens, rfl⟩, before 3 opens, ?_⟩
  exact Except.ok.inj ((before 3 opens).symm.trans tokenized)

end HostLisp
