import HostLisp.Proofs.Numerals

/-!
The texts of numbers, strings and symbols, told without the lexer. Each of them is what the lexer
takes off the front of a text in which a delimiter follows, and what it takes off a text is always one
of them.
-/

namespace HostLisp.Token

open Text

def IsNumber (cs : List Char) : Prop := ∃ numeral : Numeral, numeral.Proper ∧ numeral.chars = cs

/-- What may stand between double quotes: a backslash goes with the character after it. -/
inductive StringBody : List Char → Prop where
  | done : StringBody []
  | escaped (c : Char) {body : List Char} (rest : StringBody body) : StringBody ('\\' :: c :: body)
  | plain {c : Char} {body : List Char} (unquoted : c ≠ '"') (unescaped : c ≠ '\\')
      (rest : StringBody body) : StringBody (c :: body)

def IsString (cs : List Char) : Prop := ∃ body, StringBody body ∧ '"' :: (body ++ ['"']) = cs

structure IsSymbol (cs : List Char) : Prop where
  present : cs ≠ []
  plain : ∀ c ∈ cs, isDelimiter c = false
  unquoted : cs.head? ≠ some '\x27'
  other : ¬IsNumber cs

theorem isDigit_of_isDelimiter {c : Char} (delimiter : isDelimiter c = true) : isDigit c = false := by
  simp only [isDelimiter, isBracket, Bool.or_eq_true, beq_iff_eq] at delimiter
  rcases delimiter with ((blank | bracket) | rfl) | rfl
  · exact isDigit_of_isBlank blank
  · rcases bracket with ((rfl | rfl) | rfl) | rfl <;> decide +kernel
  · decide +kernel
  · decide +kernel

theorem plain_of_isPart {c : Char} (part : Numeral.isPart c = true) :
    isDelimiter c = false ∧ c ≠ '\x27' := by
  simp only [Numeral.isPart, Numeral.isSign, Numeral.isPowerMark, Bool.or_eq_true, beq_iff_eq] at part
  rcases part with ((digit | sign) | rfl) | mark
  · constructor
    · rw [Bool.eq_false_iff]
      intro delimiter
      rw [isDigit_of_isDelimiter delimiter] at digit
      cases digit
    · rintro rfl
      revert digit
      decide +kernel
  · rcases sign with rfl | rfl <;> decide +kernel
  · decide +kernel
  · rcases mark with rfl | rfl <;> decide +kernel

theorem isPart_of_isDelimiter {c : Char} (delimiter : isDelimiter c = true) :
    Numeral.isPart c = false := by
  rw [Bool.eq_false_iff]
  intro part
  rw [(plain_of_isPart part).1] at delimiter
  cases delimiter

theorem ends_of_atDelimiter {rest : List Char} (delimited : atDelimiter rest = true) :
    Numeral.Ends rest := by
  cases rest with
  | nil => exact ⟨nofun, nofun, nofun⟩
  | cons c rest =>
    have apart := isPart_of_isDelimiter delimited
    simp only [Numeral.isPart, Bool.or_eq_false_iff] at apart
    obtain ⟨⟨⟨digit, _⟩, point⟩, mark⟩ := apart
    exact ⟨by rintro _ ⟨⟩; exact digit, by rintro _ ⟨⟩; exact point, by rintro _ ⟨⟩; exact mark⟩

theorem atDelimiter_of_isBracket {c : Char} (bracket : isBracket c = true) (rest : List Char) :
    atDelimiter (c :: rest) = true := by
  simp [atDelimiter, isDelimiter, bracket]

theorem number?_of_isNumber {cs rest : List Char} (number : IsNumber cs)
    (delimited : atDelimiter rest = true) :
    number? (cs ++ rest) = some (.number, cs, rest) := by
  obtain ⟨numeral, proper, rfl⟩ := number
  unfold number?
  rw [Numeral.scan?_chars proper (ends_of_atDelimiter delimited)]
  simp [delimited]

theorem isNumber_present {cs : List Char} (number : IsNumber cs) : cs ≠ [] :=
  (number?_append (number?_of_isNumber number (show atDelimiter [] = true from rfl))).2

theorem isNumber_of_number? {cs chars rest : List Char} {kind : Kind}
    (found : number? cs = some (kind, chars, rest)) :
    kind = .number ∧ IsNumber chars ∧ atDelimiter rest = true := by
  unfold number? at found
  split at found
  · cases found
  · next numeral tail scanned =>
    split at found
    · next delimited =>
      cases found
      exact ⟨rfl, ⟨numeral, Numeral.proper_of_scan? scanned, rfl⟩, delimited⟩
    · cases found

theorem atom_span {front rest : List Char} (plain : ∀ c ∈ front, isDelimiter c = false)
    (delimited : atDelimiter rest = true) :
    (front ++ rest).takeWhile continuesAtom = front ∧
      (front ++ rest).dropWhile continuesAtom = rest := by
  refine takeWhile_avoids (fun c inside => by simp [continuesAtom, plain c inside]) ?_
  cases rest with
  | nil => nofun
  | cons c rest =>
    rintro _ ⟨⟩
    have delimiter : isDelimiter c = true := delimited
    simp [continuesAtom, delimiter]

theorem isNumber_plain {cs : List Char} (number : IsNumber cs) :
    ∀ c ∈ cs, isDelimiter c = false := by
  obtain ⟨numeral, proper, rfl⟩ := number
  exact fun c inside => (plain_of_isPart (proper.isPart_chars c inside)).1

theorem number?_of_isSymbol {cs rest : List Char} (symbol : IsSymbol cs)
    (delimited : atDelimiter rest = true) : number? (cs ++ rest) = none := by
  cases found : number? (cs ++ rest) with
  | none => rfl
  | some lexeme =>
    obtain ⟨kind, chars, after⟩ := lexeme
    obtain ⟨_, number, ended⟩ := isNumber_of_number? found
    have whole := (number?_append found).1
    have same : chars = cs := by
      rw [← (atom_span (isNumber_plain number) ended).1, whole]
      exact (atom_span symbol.plain delimited).1
    exact absurd (same ▸ number) symbol.other

theorem stringTail?_of_body {body : List Char} (string : StringBody body) (rest : List Char) :
    stringTail? (body ++ '"' :: rest) = some (body ++ ['"'], rest) := by
  induction string with
  | done =>
    rw [List.nil_append, stringTail?.eq_def]
    rfl
  | escaped c _ ih => simp [stringTail?, ih]
  | plain unquoted unescaped _ ih =>
    rw [List.cons_append, stringTail?.eq_def]
    simp [unquoted, unescaped, ih]

theorem body_of_stringTail? {cs tail rest : List Char} (found : stringTail? cs = some (tail, rest)) :
    ∃ body, StringBody body ∧ body ++ ['"'] = tail := by
  fun_induction stringTail? cs generalizing tail rest with
  | case1 => cases found
  | case2 cs =>
    cases found
    exact ⟨[], .done, rfl⟩
  | case3 => cases found
  | case4 d ds _ ih =>
    obtain ⟨⟨inner, after⟩, scanned, same⟩ := Option.map_eq_some_iff.mp found
    cases same
    obtain ⟨body, string, rfl⟩ := ih scanned
    exact ⟨'\\' :: d :: body, .escaped d string, rfl⟩
  | case5 c cs unquoted unescaped ih =>
    obtain ⟨⟨inner, after⟩, scanned, same⟩ := Option.map_eq_some_iff.mp found
    cases same
    obtain ⟨body, string, rfl⟩ := ih scanned
    exact ⟨c :: body, .plain unquoted unescaped string, rfl⟩

theorem mark?_eq_none_iff (c : Char) :
    mark? c = none ↔ isBracket c = false ∧ c ≠ '\x27' := by
  unfold mark? isBracket
  grind

theorem first?_atom {c : Char} (plain : isDelimiter c = false) (unquoted : c ≠ '\x27')
    (cs : List Char) : first? c cs = some (atom c cs) := by
  simp only [isDelimiter, Bool.or_eq_false_iff, beq_eq_false_iff_ne] at plain
  obtain ⟨⟨⟨blank, bracket⟩, quote⟩, semicolon⟩ := plain
  have unmarked := (mark?_eq_none_iff c).mpr ⟨bracket, unquoted⟩
  have newline : c ≠ '\n' := by
    rintro rfl
    cases blank
  have carriage : c ≠ '\r' := by
    rintro rfl
    cases blank
  simp [first?, newline, carriage, blank, semicolon, quote, unmarked]

/-- The lexer takes tokens off the front of a text one by one and leaves the rest. -/
inductive Lexes : List Char → List Token → List Char → Prop where
  | done (rest : List Char) : Lexes rest [] rest
  | token {c : Char} {cs chars after rest : List Char} {kind : Kind} {tokens : List Token}
      (found : first? c cs = some (kind, chars, after)) (others : Lexes after tokens rest) :
      Lexes (c :: cs) (⟨kind, String.ofList chars⟩ :: tokens) rest

theorem scanFrom_cons {c : Char} {cs chars after : List Char} {kind : Kind}
    (found : first? c cs = some (kind, chars, after)) (offset : Nat) :
    scanFrom offset (c :: cs) =
      ⟨⟨kind, String.ofList chars⟩ :: (scanFrom (offset + chars.length) after).tokens,
        (scanFrom (offset + chars.length) after).unterminated⟩ := by
  rw [scanFrom]
  split
  · next missing =>
    rw [found] at missing
    cases missing
  · next same =>
    rw [found] at same
    cases same
    rfl

namespace Lexes

theorem one {c : Char} {cs chars rest : List Char} {kind : Kind}
    (found : first? c cs = some (kind, chars, rest)) :
    Lexes (c :: cs) [⟨kind, String.ofList chars⟩] rest :=
  .token found (.done rest)

theorem append {cs middle rest : List Char} {tokens others : List Token}
    (front : Lexes cs tokens middle) (back : Lexes middle others rest) :
    Lexes cs (tokens ++ others) rest := by
  induction front with
  | done _ => exact back
  | token found _ ih => exact .token found (ih back)

theorem scan {cs rest : List Char} {tokens : List Token} (lexes : Lexes cs tokens rest)
    (complete : rest = []) (offset : Nat) : scanFrom offset cs = ⟨tokens, none⟩ := by
  induction lexes generalizing offset with
  | done _ =>
    rw [complete, scanFrom]
  | token found _ ih => rw [scanFrom_cons found, ih complete]

theorem of_scan {cs : List Char} {offset : Nat} {tokens : List Token}
    (scanned : scanFrom offset cs = ⟨tokens, none⟩) : Lexes cs tokens [] := by
  fun_induction scanFrom offset cs generalizing tokens with
  | case1 =>
    cases scanned
    exact .done []
  | case2 => cases scanned
  | case3 offset c cs kind chars rest found _ after =>
    rename_i others
    simp only [Scan.mk.injEq] at scanned
    obtain ⟨rfl, ended⟩ := scanned
    exact .token found (others (congrArg (Scan.mk after.tokens) ended))

theorem number {cs rest : List Char} (number : IsNumber cs) (delimited : atDelimiter rest = true) :
    Lexes (cs ++ rest) [⟨.number, String.ofList cs⟩] rest := by
  have found := number?_of_isNumber number delimited
  have present := isNumber_present number
  obtain ⟨numeral, proper, rfl⟩ := number
  cases starts : numeral.chars with
  | nil => exact absurd starts present
  | cons c cs =>
    have part := proper.isPart_chars c (starts ▸ List.mem_cons_self)
    obtain ⟨plain, unquoted⟩ := plain_of_isPart part
    rw [starts, List.cons_append] at found
    have first : first? c (cs ++ rest) = some (.number, c :: cs, rest) := by
      rw [first?_atom plain unquoted, atom, found]
    exact .one first

theorem symbol {cs rest : List Char} (symbol : IsSymbol cs) (delimited : atDelimiter rest = true) :
    Lexes (cs ++ rest) [⟨.symbol, String.ofList cs⟩] rest := by
  have missing := number?_of_isSymbol symbol delimited
  obtain ⟨taken, left⟩ := atom_span symbol.plain delimited
  cases cs with
  | nil => exact absurd rfl symbol.present
  | cons c cs =>
    have plain := symbol.plain c List.mem_cons_self
    have unquoted : c ≠ '\x27' := fun quoted => symbol.unquoted (congrArg some quoted)
    have continues : continuesAtom c = true := by simp [continuesAtom, plain]
    rw [List.cons_append] at missing
    rw [List.cons_append, List.takeWhile_cons_of_pos continues] at taken
    rw [List.cons_append, List.dropWhile_cons_of_pos continues] at left
    have first : first? c (cs ++ rest) = some (.symbol, c :: cs, rest) := by
      rw [first?_atom plain unquoted, atom, missing]
      simp only [taken, left]
    exact .one first

theorem string {cs : List Char} (string : IsString cs) (rest : List Char) :
    Lexes (cs ++ rest) [⟨.string, String.ofList cs⟩] rest := by
  obtain ⟨body, string, rfl⟩ := string
  have first : first? '"' (body ++ '"' :: rest) = some (.string, '"' :: (body ++ ['"']), rest) := by
    have tail := stringTail?_of_body string rest
    have filled : isBlank '"' = false := by decide +kernel
    simp [first?, tail, filled]
  have same : body ++ ['"'] ++ rest = body ++ '"' :: rest := List.append_assoc ..
  rw [List.cons_append, same]
  exact .one first

theorem mark {c : Char} {kind : Kind} (marks : mark? c = some kind) (rest : List Char) :
    Lexes (c :: rest) [⟨kind, String.ofList [c]⟩] rest := by
  have ordinary : c = '(' ∨ c = ')' ∨ c = '[' ∨ c = ']' ∨ c = '\x27' := by
    unfold mark? at marks
    grind
  have first : first? c rest = some (kind, [c], rest) := by
    unfold first?
    rw [marks]
    rcases ordinary with rfl | rfl | rfl | rfl | rfl <;> rfl
  exact .one first

theorem space {rest : List Char} (filled : Avoids isBlank rest) :
    Lexes (' ' :: rest) [⟨.blank, " "⟩] rest := by
  have stops : Avoids continuesBlank rest := by
    intro c starts
    simp [continuesBlank, filled c starts]
  obtain ⟨taken, left⟩ := takeWhile_avoids (List.forall_mem_nil _) stops
  have first : first? ' ' rest = some (.blank, [' '], rest) := by
    have blank : isBlank ' ' = true := by decide +kernel
    simp only [List.nil_append] at taken left
    simp [first?, blank, taken, left]
  exact .one first

theorem newline (rest : List Char) : Lexes ('\n' :: rest) [⟨.newline, "\n"⟩] rest := .one rfl

end Lexes

def Sound (token : Token) : Prop :=
  match token.kind with
  | .number => IsNumber token.text.toList
  | .string => IsString token.text.toList
  | .symbol => IsSymbol token.text.toList
  | _ => True

theorem atDelimiter_dropWhile (cs : List Char) :
    atDelimiter (cs.dropWhile continuesAtom) = true := by
  have stop := List.head?_dropWhile_not continuesAtom cs
  cases left : cs.dropWhile continuesAtom with
  | nil => rfl
  | cons c rest =>
    rw [left] at stop
    have delimiter : isDelimiter c = true := by simpa [continuesAtom] using stop
    exact delimiter

theorem isSymbol_atom {c : Char} (plain : isDelimiter c = false) (unquoted : c ≠ '\x27')
    {cs : List Char} (missing : number? (c :: cs) = none) :
    IsSymbol (c :: cs.takeWhile continuesAtom) := by
  refine ⟨List.cons_ne_nil _ _, ?_, fun quoted => unquoted (Option.some.inj quoted), ?_⟩
  · intro other inside
    rcases List.mem_cons.mp inside with rfl | inside
    · exact plain
    · have continues := List.all_eq_true.mp List.all_takeWhile other inside
      simpa [continuesAtom] using continues
  · intro number
    have found := number?_of_isNumber number (atDelimiter_dropWhile cs)
    rw [List.cons_append, List.takeWhile_append_dropWhile, missing] at found
    cases found

theorem sound_atom {c : Char} (plain : isDelimiter c = false) (unquoted : c ≠ '\x27')
    (cs : List Char) : Sound ⟨(atom c cs).1, String.ofList (atom c cs).2.1⟩ := by
  unfold atom
  split
  · next lexeme found =>
    obtain ⟨kind, number, _⟩ := isNumber_of_number? found
    simpa [Sound, kind] using number
  · next missing => simpa [Sound] using isSymbol_atom plain unquoted missing

theorem sound_first? {c : Char} {cs chars rest : List Char} {kind : Kind}
    (found : first? c cs = some (kind, chars, rest)) : Sound ⟨kind, String.ofList chars⟩ := by
  unfold first? at found
  split at found
  · cases found
    trivial
  split at found
  · cases found
    trivial
  split at found
  · cases found
    trivial
  next filled =>
  split at found
  · cases found
    trivial
  next semicolon =>
  split at found
  · next quote =>
    obtain ⟨⟨tail, after⟩, scanned, same⟩ := Option.map_eq_some_iff.mp found
    cases same
    obtain ⟨body, string, rfl⟩ := body_of_stringTail? scanned
    have whole : IsString (c :: (body ++ ['"'])) := ⟨body, string, by rw [quote]⟩
    simpa [Sound] using whole
  next quote =>
  split at found
  · next marked =>
    cases found
    unfold mark? at marked
    grind [Sound]
  · next unmarked =>
    obtain ⟨bracket, unquoted⟩ := (mark?_eq_none_iff c).mp unmarked
    have plain : isDelimiter c = false := by simp [isDelimiter, filled, bracket, quote, semicolon]
    have sound := sound_atom plain unquoted cs
    rwa [Option.some.inj found] at sound

theorem Lexes.sound {cs rest : List Char} {tokens : List Token} (lexes : Lexes cs tokens rest) :
    ∀ token ∈ tokens, token.Sound := by
  induction lexes with
  | done _ => nofun
  | token found _ ih =>
    intro token inside
    rcases List.mem_cons.mp inside with rfl | inside
    · exact sound_first? found
    · exact ih token inside

end HostLisp.Token
