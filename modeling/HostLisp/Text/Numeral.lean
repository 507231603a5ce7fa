import HostLisp.Text.DecimalDigit

/-!
Numerals: an optional sign, digits with an optional point, and an optional power of ten. The digits
may belong to any script.
-/

namespace HostLisp.Text

structure Numeral.Power where
  mark : Char
  sign : Option Char
  digits : List Char
deriving DecidableEq

structure Numeral where
  sign : Option Char
  whole : List Char
  fraction : Option (List Char)
  power : Option Numeral.Power
deriving DecidableEq

namespace Numeral

def Power.chars (power : Power) : List Char :=
  power.mark :: power.sign.toList ++ power.digits

def chars (numeral : Numeral) : List Char :=
  numeral.sign.toList ++ numeral.whole ++ (numeral.fraction.map ('.' :: ·)).getD [] ++
    (numeral.power.map Power.chars).getD []

def isSign (c : Char) : Bool := c == '+' || c == '-'

def isPowerMark (c : Char) : Bool := c == 'e' || c == 'E'

def scanSign : List Char → Option Char × List Char
  | [] => (none, [])
  | c :: cs => if isSign c then (some c, cs) else (none, c :: cs)

/-- Splits the longest digit sequence with an optional point off the front; it needs a digit. -/
def scanSignificand? (cs : List Char) : Option (List Char × Option (List Char) × List Char) :=
  match cs.takeWhile isDigit, cs.dropWhile isDigit with
  | [], [] => none
  | [], c :: rest =>
    if c = '.' ∧ rest.takeWhile isDigit ≠ [] then
      some ([], some (rest.takeWhile isDigit), rest.dropWhile isDigit)
    else none
  | d :: ds, [] => some (d :: ds, none, [])
  | d :: ds, c :: rest =>
    if c = '.' then some (d :: ds, some (rest.takeWhile isDigit), rest.dropWhile isDigit)
    else some (d :: ds, none, c :: rest)

/-- Splits a power of ten off the front if a complete one stands there. -/
def scanPower : List Char → Option Power × List Char
  | [] => (none, [])
  | c :: cs =>
    if isPowerMark c ∧ (scanSign cs).2.takeWhile isDigit ≠ [] then
      (some ⟨c, (scanSign cs).1, (scanSign cs).2.takeWhile isDigit⟩,
        (scanSign cs).2.dropWhile isDigit)
    else (none, c :: cs)

def scan? (cs : List Char) : Option (Numeral × List Char) :=
  match scanSignificand? (scanSign cs).2 with
  | none => none
  | some (whole, fraction, rest) =>
    some (⟨(scanSign cs).1, whole, fraction, (scanPower rest).1⟩, (scanPower rest).2)

def ofChars? (cs : List Char) : Option Numeral :=
  match scan? cs with
  | some (numeral, []) => some numeral
  | _ => none

theorem scanSign_append (cs : List Char) : (scanSign cs).1.toList ++ (scanSign cs).2 = cs := by
  cases cs with
  | nil => rfl
  | cons c cs => by_cases h : isSign c <;> simp [scanSign, h]

theorem scanSignificand?_append {cs whole rest : List Char} {fraction : Option (List Char)}
    (found : scanSignificand? cs = some (whole, fraction, rest)) :
    whole ++ (fraction.map ('.' :: ·)).getD [] ++ rest = cs := by
  have parts := List.takeWhile_append_dropWhile (p := isDigit) (l := cs)
  unfold scanSignificand? at found
  split at found
  · simp at found
  · next c tail none some =>
    rw [none, some] at parts
    split at found
    · next point =>
      simp only [Option.some.injEq, Prod.mk.injEq] at found
      obtain ⟨rfl, rfl, rfl⟩ := found
      simpa [point.1] using parts
    · simp at found
  · next d ds some none =>
    rw [none, some] at parts
    simp only [Option.some.injEq, Prod.mk.injEq] at found
    obtain ⟨rfl, rfl, rfl⟩ := found
    simpa using parts
  · next d ds c tail digits continued =>
    rw [digits, continued] at parts
    split at found
    · next point =>
      simp only [Option.some.injEq, Prod.mk.injEq] at found
      obtain ⟨rfl, rfl, rfl⟩ := found
      simpa [point] using parts
    · simp only [Option.some.injEq, Prod.mk.injEq] at found
      obtain ⟨rfl, rfl, rfl⟩ := found
      simpa using parts

theorem scanSignificand?_ne_nil {cs whole rest : List Char} {fraction : Option (List Char)}
    (found : scanSignificand? cs = some (whole, fraction, rest)) :
    whole ++ (fraction.map ('.' :: ·)).getD [] ≠ [] := by
  unfold scanSignificand? at found
  split at found
  · simp at found
  · split at found
    · simp only [Option.some.injEq, Prod.mk.injEq] at found
      obtain ⟨rfl, rfl, rfl⟩ := found
      simp
    · simp at found
  · simp only [Option.some.injEq, Prod.mk.injEq] at found
    obtain ⟨rfl, rfl, rfl⟩ := found
    simp
  · split at found <;>
    · simp only [Option.some.injEq, Prod.mk.injEq] at found
      obtain ⟨rfl, rfl, rfl⟩ := found
      simp

theorem scanPower_append (cs : List Char) :
    ((scanPower cs).1.map Power.chars).getD [] ++ (scanPower cs).2 = cs := by
  cases cs with
  | nil => rfl
  | cons c cs =>
    have signed := scanSign_append cs
    by_cases complete : isPowerMark c = true ∧ (scanSign cs).2.takeWhile isDigit ≠ []
    · rw [scanPower, if_pos complete]
      simp [Power.chars, signed]
    · rw [scanPower, if_neg complete]
      rfl

theorem scan?_append {cs rest : List Char} {numeral : Numeral}
    (found : scan? cs = some (numeral, rest)) : numeral.chars ++ rest = cs := by
  unfold scan? at found
  split at found
  · simp at found
  · next whole fraction tail significand =>
    simp only [Option.some.injEq, Prod.mk.injEq] at found
    obtain ⟨rfl, rfl⟩ := found
    have front := scanSignificand?_append significand
    have power := scanPower_append tail
    simp only [chars, List.append_assoc] at front power ⊢
    rw [power, front, scanSign_append]

theorem scan?_ne_nil {cs rest : List Char} {numeral : Numeral}
    (found : scan? cs = some (numeral, rest)) : numeral.chars ≠ [] := by
  unfold scan? at found
  split at found
  · simp at found
  · next whole fraction tail significand =>
    simp only [Option.some.injEq, Prod.mk.injEq] at found
    obtain ⟨rfl, rfl⟩ := found
    have digits := scanSignificand?_ne_nil significand
    intro empty
    simp only [chars, List.append_eq_nil_iff] at empty
    exact digits (by simp [empty])

end Numeral

def digitsValue (cs : List Char) : Nat :=
  cs.foldl (fun value c => 10 * value + (digitValue? c).getD 0) 0

end HostLisp.Text
