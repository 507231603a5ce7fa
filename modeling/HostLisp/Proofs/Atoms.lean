import HostLisp.Proofs.Unterminated
import Mathlib.Computability.Language

/-!
Numbers and symbols are whole runs. Where one of them stands, the text up to the next delimiter is
taken as it is, and what it is depends on nothing but whether all of it belongs to the language of
numbers. Looking for a number with a delimiter after it comes to the same: no shorter part of the run
can be one.
-/

namespace HostLisp

namespace Text.Numeral

open scoped Computability

def oneOf (test : Char → Bool) : Language Char := { cs | ∃ c, test c = true ∧ [c] = cs }

def digits : Language Char := oneOf isDigit * (oneOf isDigit)∗

def point : Language Char := oneOf (· == '.')

/-- `[+-]?(\d+(\.\d*)?|\.\d+)([eE][+-]?\d+)?`, with the digits of any script. -/
def language : Language Char :=
  (1 + oneOf isSign) * (digits * (1 + point * (oneOf isDigit)∗) + point * digits) *
    (1 + oneOf isPowerMark * ((1 + oneOf isSign) * digits))

theorem mem_oneOf {test : Char → Bool} {cs : List Char} :
    cs ∈ oneOf test ↔ ∃ c, test c = true ∧ [c] = cs := Iff.rfl

theorem mem_star_oneOf {test : Char → Bool} {cs : List Char} :
    cs ∈ (oneOf test)∗ ↔ ∀ c ∈ cs, test c = true := by
  rw [Language.mem_kstar]
  constructor
  · rintro ⟨parts, rfl, each⟩ c inside
    obtain ⟨part, listed, within⟩ := List.mem_flatten.mp inside
    obtain ⟨d, holds, rfl⟩ := each part listed
    rw [List.mem_singleton.mp within]
    exact holds
  · intro holds
    refine ⟨cs.map fun c => [c], by simp [← List.flatMap_def], ?_⟩
    intro part listed
    obtain ⟨c, inside, rfl⟩ := List.mem_map.mp listed
    exact ⟨c, holds c inside, rfl⟩

theorem mem_digits {cs : List Char} :
    cs ∈ digits ↔ cs ≠ [] ∧ ∀ c ∈ cs, isDigit c = true := by
  unfold digits
  rw [Language.mem_mul]
  constructor
  · rintro ⟨_, ⟨c, digit, rfl⟩, rest, within, rfl⟩
    exact ⟨List.cons_ne_nil _ _, List.forall_mem_cons.mpr ⟨digit, mem_star_oneOf.mp within⟩⟩
  · rintro ⟨present, within⟩
    obtain ⟨c, rest, rfl⟩ := List.exists_cons_of_ne_nil present
    obtain ⟨digit, others⟩ := List.forall_mem_cons.mp within
    exact ⟨[c], ⟨c, digit, rfl⟩, rest, mem_star_oneOf.mpr others, rfl⟩

theorem mem_optional {part : Language Char} {cs : List Char} :
    cs ∈ 1 + part ↔ cs = [] ∨ cs ∈ part := by
  rw [Language.mem_add, Language.mem_one]

theorem mem_optional_sign {cs : List Char} :
    cs ∈ 1 + oneOf isSign ↔ ∃ sign : Option Char, (∀ c ∈ sign, isSign c = true) ∧ sign.toList = cs := by
  rw [mem_optional, mem_oneOf]
  constructor
  · rintro (rfl | ⟨c, signs, rfl⟩)
    · exact ⟨none, by simp, rfl⟩
    · exact ⟨some c, by simpa using signs, rfl⟩
  · rintro ⟨sign, signs, rfl⟩
    cases sign with
    | none => exact .inl rfl
    | some c => exact .inr ⟨c, signs c rfl, rfl⟩

theorem mem_significand {cs : List Char} :
    cs ∈ digits * (1 + point * (oneOf isDigit)∗) + point * digits ↔
      ∃ (whole : List Char) (fraction : Option (List Char)), (∀ c ∈ whole, isDigit c = true) ∧
        (∀ part ∈ fraction, ∀ c ∈ part, isDigit c = true) ∧
        (whole = [] → ∃ part ∈ fraction, part ≠ []) ∧
        whole ++ (fraction.map ('.' :: ·)).getD [] = cs := by
  simp only [Language.mem_add, Language.mem_mul, mem_digits, Language.mem_one, mem_star_oneOf, point,
    mem_oneOf, beq_iff_eq]
  constructor
  · rintro (⟨whole, ⟨present, digit⟩, rest, rfl | ⟨_, ⟨_, rfl, rfl⟩, part, within, rfl⟩, rfl⟩ |
      ⟨_, ⟨_, rfl, rfl⟩, part, ⟨present, within⟩, rfl⟩)
    · exact ⟨whole, none, digit, by simp, fun empty => absurd empty present, rfl⟩
    · exact ⟨whole, some part, digit, by simpa using within, fun empty => absurd empty present, rfl⟩
    · exact ⟨[], some part, by simp, by simpa using within, fun _ => ⟨part, rfl, present⟩, rfl⟩
  · rintro ⟨whole, fraction, digit, within, enough, rfl⟩
    by_cases present : whole = []
    · obtain ⟨part, found, filled⟩ := enough present
      subst present
      rw [Option.mem_def.mp found]
      exact .inr ⟨['.'], ⟨'.', rfl, rfl⟩, part, ⟨filled, within part found⟩, rfl⟩
    · refine .inl ⟨whole, ⟨present, digit⟩, _, ?_, rfl⟩
      cases fraction with
      | none => exact .inl rfl
      | some part => exact .inr ⟨['.'], ⟨'.', rfl, rfl⟩, part, within part rfl, rfl⟩

theorem mem_optional_power {cs : List Char} :
    cs ∈ 1 + oneOf isPowerMark * ((1 + oneOf isSign) * digits) ↔
      ∃ power : Option Power, (∀ p ∈ power, isPowerMark p.mark = true ∧
        (∀ c ∈ p.sign, isSign c = true) ∧ p.digits ≠ [] ∧ ∀ c ∈ p.digits, isDigit c = true) ∧
        (power.map Power.chars).getD [] = cs := by
  rw [mem_optional, Language.mem_mul]
  simp only [Language.mem_mul, mem_optional_sign, mem_digits, mem_oneOf]
  constructor
  · rintro (rfl | ⟨_, ⟨mark, marks, rfl⟩, _, ⟨_, ⟨sign, signs, rfl⟩, ds, ⟨present, within⟩, rfl⟩, rfl⟩)
    · exact ⟨none, by simp, rfl⟩
    · exact ⟨some ⟨mark, sign, ds⟩, by simpa using ⟨marks, signs, present, within⟩, rfl⟩
  · rintro ⟨power, proper, rfl⟩
    cases power with
    | none => exact .inl rfl
    | some power =>
      obtain ⟨marks, signs, present, within⟩ := proper power rfl
      exact .inr ⟨[power.mark], ⟨_, marks, rfl⟩, _,
        ⟨_, ⟨power.sign, signs, rfl⟩, power.digits, ⟨present, within⟩, rfl⟩, rfl⟩

end Text.Numeral

namespace Token

open Text

theorem mem_language_iff (cs : List Char) : cs ∈ Numeral.language ↔ IsNumber cs := by
  unfold Numeral.language
  simp only [Language.mem_mul, Numeral.mem_optional_sign, Numeral.mem_significand,
    Numeral.mem_optional_power]
  constructor
  · rintro ⟨_, ⟨_, ⟨sign, signs, rfl⟩, _, ⟨whole, fraction, digit, within, enough, rfl⟩, rfl⟩, _,
      ⟨power, proper, rfl⟩, rfl⟩
    refine ⟨⟨sign, whole, fraction, power⟩, ⟨signs, digit, within, enough, proper⟩, ?_⟩
    simp [Numeral.chars]
  · rintro ⟨⟨sign, whole, fraction, power⟩, ⟨signs, digit, within, enough, proper⟩, rfl⟩
    refine ⟨_, ⟨_, ⟨sign, signs, rfl⟩, _, ⟨whole, fraction, digit, within, enough, rfl⟩, rfl⟩, _,
      ⟨power, proper, rfl⟩, ?_⟩
    simp [Numeral.chars]

def runAt (source : String) (p : Nat) : List Char :=
  (source.toList.drop p).takeWhile continuesAtom

/-- What may be taken for a number where a delimiter comes next is all that stands before it. -/
theorem eq_run_of_mem_language {taken rest : List Char} (number : taken ∈ Numeral.language)
    (delimited : atDelimiter rest = true) : (taken ++ rest).takeWhile continuesAtom = taken :=
  (atom_span (isNumber_plain ((mem_language_iff taken).mp number)) delimited).1

theorem number?_eq_some_iff (cs : List Char) (lexeme : Lexeme) :
    number? cs = some lexeme ↔ cs.takeWhile continuesAtom ∈ Numeral.language ∧
      lexeme = (.number, cs.takeWhile continuesAtom, cs.dropWhile continuesAtom) := by
  constructor
  · obtain ⟨kind, chars, rest⟩ := lexeme
    intro found
    obtain ⟨rfl, number, delimited⟩ := isNumber_of_number? found
    obtain ⟨taken, left⟩ := atom_span (isNumber_plain number) delimited
    rw [← (number?_append found).1, taken, left]
    exact ⟨(mem_language_iff chars).mpr number, rfl⟩
  · rintro ⟨number, rfl⟩
    have found := number?_of_isNumber ((mem_language_iff _).mp number) (atDelimiter_dropWhile cs)
    rwa [List.takeWhile_append_dropWhile] at found

theorem lexes_append_iff {cs rest : List Char} {tokens others : List Token} :
    Lexes cs (tokens ++ others) rest ↔ ∃ middle, Lexes cs tokens middle ∧ Lexes middle others rest := by
  constructor
  · intro lexes
    induction tokens generalizing cs with
    | nil => exact ⟨cs, .done cs, lexes⟩
    | cons token tokens ih =>
      obtain ⟨after, first, later⟩ := lexes_cons_iff.mp lexes
      obtain ⟨middle, front, back⟩ := ih later
      exact ⟨middle, lexes_cons_iff.mpr ⟨after, first, front⟩, back⟩
  · rintro ⟨middle, front, back⟩
    exact front.append back

theorem lexes_scan (source : String) : ∃ rest, Lexes source.toList (scan source).tokens rest := by
  have scanned : scanFrom 0 source.toList = ⟨(scan source).tokens, (scan source).unterminated⟩ := rfl
  cases stops : (scan source).unterminated with
  | none =>
    rw [stops] at scanned
    exact ⟨[], .of_scan scanned⟩
  | some p =>
    rw [stops] at scanned
    obtain ⟨rest, lexes, -⟩ := Lexes.of_stuck scanned
    exact ⟨_, lexes⟩

theorem Lexes.atom {token : Token} {cs rest : List Char} (lexes : Lexes cs [token] rest)
    (atom : token.kind = .number ∨ token.kind = .symbol) :
    token.text.toList = cs.takeWhile continuesAtom ∧
      (token.kind = .number ↔ cs.takeWhile continuesAtom ∈ Numeral.language) := by
  obtain ⟨rfl, admits, stops⟩ := lexes_one_iff.mp lexes
  rw [mem_language_iff]
  rcases atom with number | symbol
  · rw [number] at admits stops
    have whole := (atom_span (isNumber_plain admits) ((atDelimiter_iff rest).mpr stops)).1
    rw [whole]
    exact ⟨rfl, iff_of_true number admits⟩
  · rw [symbol] at admits stops
    have whole := (atom_span admits.plain ((atDelimiter_iff rest).mpr stops)).1
    rw [whole]
    refine ⟨rfl, iff_of_false ?_ admits.other⟩
    rw [symbol]
    exact Kind.noConfusion

end Token

open Token Text

/-- Every number and every symbol among the tokens of a source is all that stands up to the next
delimiter, and it is a number just if the whole of that is one. At no offset can a shorter part of the
run be taken for a number, and the search for one succeeds just if the run is one. -/
theorem atoms_maximal (source : String) :
    (∀ front token back, (Token.scan source).tokens = front ++ token :: back →
      token.kind = .number ∨ token.kind = .symbol →
        token.text.toList = runAt source (extent front) ∧
        (token.kind = .number ↔ runAt source (extent front) ∈ Numeral.language) ∧
        (token.kind = .symbol ↔ runAt source (extent front) ∉ Numeral.language)) ∧
    (∀ p taken rest, source.toList.drop p = taken ++ rest → taken ∈ Numeral.language →
      atDelimiter rest = true → taken = runAt source p) ∧
    ∀ p lexeme, number? (source.toList.drop p) = some lexeme ↔
      runAt source p ∈ Numeral.language ∧
        lexeme = (.number, runAt source p, (source.toList.drop p).dropWhile continuesAtom) := by
  refine ⟨?_, ?_, fun p lexeme => number?_eq_some_iff _ lexeme⟩
  · intro front token back placed atom
    obtain ⟨rest, lexes⟩ := lexes_scan source
    rw [placed] at lexes
    obtain ⟨here, before, after⟩ := lexes_append_iff.mp lexes
    obtain ⟨left, one, -⟩ := lexes_cons_iff.mp after
    have drop : source.toList.drop (extent front) = here := by
      rw [← before.texts.1, extent, List.drop_left]
    obtain ⟨whole, number⟩ := one.atom atom
    rw [← drop] at whole number
    change _ ↔ runAt source (extent front) ∈ _ at number
    refine ⟨whole, number, ?_⟩
    rw [← not_congr number]
    rcases atom with same | same
    · simp [same]
    · simp [same]
  · intro p taken rest split number delimited
    rw [runAt, split, eq_run_of_mem_language number delimited]

/-- A run that starts like a number and a sign between two of them make symbols; digits of another
script and a lone point do not keep a run from being a number. -/
theorem atoms_maximal_near_misses :
    let source := "1e+ ٣.;"
    (Token.scan source).tokens =
        [⟨.symbol, "1e+"⟩] ++ ⟨.blank, " "⟩ :: [⟨.number, "٣."⟩, ⟨.comment, ";"⟩] ∧
      "1e+".toList = runAt source 0 ∧ runAt source 0 ∉ Numeral.language ∧
      "٣.".toList = runAt source 4 ∧ runAt source 4 ∈ Numeral.language := by
  intro source
  have symbol : Token.first? '1' ['e', '+', ' ', '٣', '.', ';'] =
      some (.symbol, ['1', 'e', '+'], [' ', '٣', '.', ';']) := by decide +kernel
  have blank : Token.first? ' ' ['٣', '.', ';'] = some (.blank, [' '], ['٣', '.', ';']) := by
    decide +kernel
  have number : Token.first? '٣' ['.', ';'] = some (.number, ['٣', '.'], [';']) := by decide +kernel
  have comment : Token.first? ';' [] = some (.comment, [';'], []) := by decide +kernel
  have characters : source.toList = ['1', 'e', '+', ' ', '٣', '.', ';'] := by decide +kernel
  have digits : "٣." = String.ofList ['٣', '.'] := by decide +kernel
  have lexes : Token.Lexes source.toList
      [⟨.symbol, "1e+"⟩, ⟨.blank, " "⟩, ⟨.number, "٣."⟩, ⟨.comment, ";"⟩] [] := by
    rw [characters, digits]
    exact .token symbol (.token blank (.token number (.one comment)))
  have scanned := congrArg Scan.tokens (lexes.scan rfl 0)
  obtain ⟨atoms, -⟩ := atoms_maximal source
  obtain ⟨whole, -, other⟩ := atoms [] ⟨.symbol, "1e+"⟩ _ scanned (.inr rfl)
  obtain ⟨wholeNumber, language, -⟩ := atoms [⟨.symbol, "1e+"⟩, ⟨.blank, " "⟩] ⟨.number, "٣."⟩ _
    scanned (.inl rfl)
  have reach : extent [⟨.symbol, "1e+"⟩, ⟨.blank, " "⟩] = 4 := by decide +kernel
  rw [reach] at wholeNumber language
  exact ⟨scanned, whole, other.mp rfl, wholeNumber, language.mp rfl⟩

end HostLisp
