import HostLisp.Text.Blank
import HostLisp.Text.Numeral
import HostLisp.Token.Basic

/-!
The lexer splits a text into tokens without losing a character. It fails only at a double quote
that opens a string without an end.
-/

namespace HostLisp.Token

open Text

def isBracket (c : Char) : Bool := c == '(' || c == ')' || c == '[' || c == ']'

def isDelimiter (c : Char) : Bool := isBlank c || isBracket c || c == '"' || c == ';'

def atDelimiter : List Char → Bool
  | [] => true
  | c :: _ => isDelimiter c

/-- Splits the rest of a string literal, closing quote included, off a text. A backslash takes the
character after it along. -/
def stringTail? : List Char → Option (List Char × List Char)
  | [] => none
  | c :: cs =>
    if c = '"' then some ([c], cs)
    else if c = '\\' then
      match cs with
      | [] => none
      | d :: ds => (stringTail? ds).map fun (tail, rest) => (c :: d :: tail, rest)
    else (stringTail? cs).map fun (tail, rest) => (c :: tail, rest)

abbrev Lexeme := Kind × List Char × List Char

/-- A numeral counts as a number only where an atom may end. -/
def number? (cs : List Char) : Option Lexeme :=
  match Numeral.scan? cs with
  | none => none
  | some (numeral, rest) => if atDelimiter rest then some (.number, numeral.chars, rest) else none

def continuesBlank (c : Char) : Bool := isBlank c && c != '\n'

def continuesComment (c : Char) : Bool := c != '\n'

def continuesAtom (c : Char) : Bool := !isDelimiter c

def mark? (c : Char) : Option Kind :=
  if c = '(' then some .openList
  else if c = ')' then some .closeList
  else if c = '[' then some .openVector
  else if c = ']' then some .closeVector
  else if c = '\x27' then some .quote
  else none

def atom (c : Char) (cs : List Char) : Lexeme :=
  match number? (c :: cs) with
  | some lexeme => lexeme
  | none => (.symbol, c :: cs.takeWhile continuesAtom, cs.dropWhile continuesAtom)

def first? (c : Char) (cs : List Char) : Option Lexeme :=
  if c = '\n' then some (.newline, [c], cs)
  else if c = '\r' ∧ cs.head? = some '\n' then some (.newline, [c, '\n'], cs.tail)
  else if isBlank c then
    some (.blank, c :: cs.takeWhile continuesBlank, cs.dropWhile continuesBlank)
  else if c = ';' then
    some (.comment, c :: cs.takeWhile continuesComment, cs.dropWhile continuesComment)
  else if c = '"' then (stringTail? cs).map fun (tail, rest) => (.string, c :: tail, rest)
  else
    match mark? c with
    | some kind => some (kind, [c], cs)
    | none => some (atom c cs)

theorem stringTail?_append {cs tail rest : List Char} (found : stringTail? cs = some (tail, rest)) :
    tail ++ rest = cs := by
  fun_induction stringTail? cs generalizing tail rest with
  | case1 => simp at found
  | case2 cs =>
    simp only [Option.some.injEq, Prod.mk.injEq] at found
    simp [← found.1, ← found.2]
  | case3 => simp at found
  | case4 d ds _ ih =>
    obtain ⟨⟨inner, after⟩, scanned, same⟩ := Option.map_eq_some_iff.1 found
    simp only [Prod.mk.injEq] at same
    simp [← same.1, ← same.2, ih scanned]
  | case5 c cs _ _ ih =>
    obtain ⟨⟨inner, after⟩, scanned, same⟩ := Option.map_eq_some_iff.1 found
    simp only [Prod.mk.injEq] at same
    simp [← same.1, ← same.2, ih scanned]

theorem number?_append {cs chars rest : List Char} {kind : Kind}
    (found : number? cs = some (kind, chars, rest)) : chars ++ rest = cs ∧ chars ≠ [] := by
  unfold number? at found
  split at found
  · simp at found
  · next numeral tail scanned =>
    split at found
    · simp only [Option.some.injEq, Prod.mk.injEq] at found
      obtain ⟨_, rfl, rfl⟩ := found
      exact ⟨Numeral.scan?_append scanned, Numeral.scan?_ne_nil scanned⟩
    · simp at found

theorem atom_append (c : Char) (cs : List Char) :
    (atom c cs).2.1 ++ (atom c cs).2.2 = c :: cs ∧ (atom c cs).2.1 ≠ [] := by
  unfold atom
  split
  · next lexeme found => exact number?_append found
  · simp

theorem first?_append {c : Char} {cs chars rest : List Char} {kind : Kind}
    (found : first? c cs = some (kind, chars, rest)) : chars ++ rest = c :: cs ∧ chars ≠ [] := by
  unfold first? at found
  split at found
  · simp only [Option.some.injEq, Prod.mk.injEq] at found
    simp [← found.2.1, ← found.2.2]
  split at found
  · next lineEnd =>
    simp only [Option.some.injEq, Prod.mk.injEq] at found
    obtain ⟨_, rfl, rfl⟩ := found
    cases cs with
    | nil => simp at lineEnd
    | cons d ds => simp_all
  split at found
  · simp only [Option.some.injEq, Prod.mk.injEq] at found
    simp [← found.2.1, ← found.2.2]
  split at found
  · simp only [Option.some.injEq, Prod.mk.injEq] at found
    simp [← found.2.1, ← found.2.2]
  split at found
  · obtain ⟨⟨tail, after⟩, scanned, same⟩ := Option.map_eq_some_iff.1 found
    simp only [Prod.mk.injEq] at same
    simp [← same.2.1, ← same.2.2, stringTail?_append scanned]
  split at found
  · simp only [Option.some.injEq, Prod.mk.injEq] at found
    simp [← found.2.1, ← found.2.2]
  · simp only [Option.some.injEq] at found
    simpa [found] using atom_append c cs

theorem first?_rest_lt {c : Char} {cs chars rest : List Char} {kind : Kind}
    (found : first? c cs = some (kind, chars, rest)) : rest.length < (c :: cs).length := by
  obtain ⟨whole, nonempty⟩ := first?_append found
  have taken : 0 < chars.length := List.length_pos_iff.2 nonempty
  have total := congrArg List.length whole
  rw [List.length_append] at total
  omega

/-- The tokens of a text, up to a string without an end if there is one: then the offset of its
opening quote is given too. -/
structure Scan where
  tokens : List Token
  unterminated : Option Nat
deriving DecidableEq

def scanFrom (offset : Nat) : List Char → Scan
  | [] => ⟨[], none⟩
  | c :: cs =>
    match found : first? c cs with
    | none => ⟨[], some offset⟩
    | some (kind, chars, rest) =>
      have := first?_rest_lt found
      let after := scanFrom (offset + chars.length) rest
      ⟨⟨kind, String.ofList chars⟩ :: after.tokens, after.unterminated⟩
termination_by cs => cs.length
decreasing_by assumption

def scan (source : String) : Scan := scanFrom 0 source.toList

end HostLisp.Token
