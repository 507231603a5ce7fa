import HostLisp.Token.Lexer

/-!
The number grammar, and that the lexer follows it: it takes a numeral off the front of a text exactly
where one stands that fits the grammar and ends at a delimiter.
-/

namespace HostLisp

namespace Text

theorem isDigit_iff (c : Char) :
    isDigit c = true ↔ ∃ base ∈ digitZeros, base ≤ c.toNat ∧ c.toNat < base + 10 := by
  simp [isDigit, digitValue?]

theorem digits_apart_blanks : ∀ base ∈ digitZeros, ∀ range ∈ blankRanges,
    range.last < base ∨ base + 10 ≤ range.first := by
  decide +kernel

theorem isDigit_of_isBlank {c : Char} (blank : isBlank c = true) : isDigit c = false := by
  rw [isBlank, inRanges_iff] at blank
  obtain ⟨range, listed, lower, upper⟩ := blank
  rw [Bool.eq_false_iff, ne_eq, isDigit_iff]
  rintro ⟨base, block, after, before⟩
  have apart := digits_apart_blanks base block range listed
  omega

def Avoids (test : Char → Bool) (rest : List Char) : Prop := ∀ c ∈ rest.head?, test c = false

theorem takeWhile_avoids {test : Char → Bool} {front rest : List Char}
    (within : ∀ c ∈ front, test c = true) (stops : Avoids test rest) :
    (front ++ rest).takeWhile test = front ∧ (front ++ rest).dropWhile test = rest := by
  rw [List.takeWhile_append_of_pos within, List.dropWhile_append_of_pos within]
  cases rest with
  | nil => simp
  | cons c rest =>
    have stop : test c = false := stops c rfl
    simp [stop]

namespace Numeral

/-- The number grammar: an optional sign, digits before or after an optional point, and an optional
power of ten with digits. -/
structure Proper (numeral : Numeral) : Prop where
  sign : ∀ c ∈ numeral.sign, isSign c = true
  whole : ∀ c ∈ numeral.whole, isDigit c = true
  fraction : ∀ digits ∈ numeral.fraction, ∀ c ∈ digits, isDigit c = true
  digits : numeral.whole = [] → ∃ digits ∈ numeral.fraction, digits ≠ []
  power : ∀ power ∈ numeral.power, isPowerMark power.mark = true ∧
    (∀ c ∈ power.sign, isSign c = true) ∧ power.digits ≠ [] ∧ ∀ c ∈ power.digits, isDigit c = true

theorem isDigit_point : isDigit '.' = false := by decide +kernel

theorem isDigit_of_isSign {c : Char} (sign : isSign c = true) : isDigit c = false := by
  simp only [isSign, Bool.or_eq_true, beq_iff_eq] at sign
  rcases sign with rfl | rfl
  · decide +kernel
  · decide +kernel

theorem isDigit_of_isPowerMark {c : Char} (mark : isPowerMark c = true) : isDigit c = false := by
  simp only [isPowerMark, Bool.or_eq_true, beq_iff_eq] at mark
  rcases mark with rfl | rfl
  · decide +kernel
  · decide +kernel

theorem scanSign_chars {sign : Option Char} (proper : ∀ c ∈ sign, isSign c = true)
    {rest : List Char} (stops : Avoids isSign rest) :
    scanSign (sign.toList ++ rest) = (sign, rest) := by
  cases sign with
  | none =>
    cases rest with
    | nil => rfl
    | cons c rest =>
      have stop : isSign c = false := stops c rfl
      simp [scanSign, stop]
  | some c =>
    have sign : isSign c = true := proper c rfl
    simp [scanSign, sign]

theorem scanSignificand?_chars {whole : List Char} {fraction : Option (List Char)}
    (wholeDigits : ∀ c ∈ whole, isDigit c = true)
    (fractionDigits : ∀ digits ∈ fraction, ∀ c ∈ digits, isDigit c = true)
    (enough : whole = [] → ∃ digits ∈ fraction, digits ≠ []) {rest : List Char}
    (stops : Avoids isDigit rest) (pointless : Avoids (· == '.') rest) :
    scanSignificand? (whole ++ (fraction.map ('.' :: ·)).getD [] ++ rest) =
      some (whole, fraction, rest) := by
  cases fraction with
  | none =>
    obtain ⟨taken, left⟩ := takeWhile_avoids wholeDigits stops
    have present : whole ≠ [] := fun empty => by simpa using enough empty
    obtain ⟨d, ds, rfl⟩ := List.exists_cons_of_ne_nil present
    simp only [Option.map_none, Option.getD_none, List.append_nil]
    rw [scanSignificand?, taken, left]
    cases rest with
    | nil => rfl
    | cons c rest =>
      have other : c ≠ '.' := by simpa using pointless c rfl
      simp [other]
  | some digits =>
    have point : Avoids isDigit ('.' :: (digits ++ rest)) := by
      rintro c ⟨⟩
      exact isDigit_point
    obtain ⟨taken, left⟩ := takeWhile_avoids wholeDigits point
    obtain ⟨after, remaining⟩ := takeWhile_avoids (fractionDigits digits rfl) stops
    simp only [Option.map_some, Option.getD_some, List.append_assoc, List.cons_append]
    rw [scanSignificand?, taken, left]
    cases whole with
    | nil =>
      have present : digits ≠ [] := by simpa using enough rfl
      simp [after, remaining, present]
    | cons d ds => simp [after, remaining]

theorem avoids_sign_digits {digits : List Char} (present : digits ≠ [])
    (within : ∀ c ∈ digits, isDigit c = true) (rest : List Char) : Avoids isSign (digits ++ rest) := by
  obtain ⟨d, ds, rfl⟩ := List.exists_cons_of_ne_nil present
  rintro c ⟨⟩
  have digit := within d List.mem_cons_self
  cases sign : isSign d with
  | false => rfl
  | true => exact absurd (isDigit_of_isSign sign) (by simp [digit])

theorem scanPower_chars {power : Option Power}
    (proper : ∀ p ∈ power, isPowerMark p.mark = true ∧ (∀ c ∈ p.sign, isSign c = true) ∧
      p.digits ≠ [] ∧ ∀ c ∈ p.digits, isDigit c = true)
    {rest : List Char} (stops : Avoids isDigit rest) (unmarked : Avoids isPowerMark rest) :
    scanPower ((power.map Power.chars).getD [] ++ rest) = (power, rest) := by
  cases power with
  | none =>
    cases rest with
    | nil => rfl
    | cons c rest =>
      have other : isPowerMark c = false := unmarked c rfl
      simp [scanPower, other]
  | some power =>
    obtain ⟨mark, sign, present, digits⟩ := proper power rfl
    obtain ⟨taken, left⟩ := takeWhile_avoids digits stops
    have signed := scanSign_chars sign (avoids_sign_digits present digits rest)
    simp only [Option.map_some, Option.getD_some, Power.chars, List.cons_append, List.append_assoc]
    rw [scanPower, signed, taken, left]
    simp [mark, present]

theorem Proper.avoids_sign {numeral : Numeral} (proper : numeral.Proper) (rest : List Char) :
    Avoids isSign (numeral.whole ++ (numeral.fraction.map ('.' :: ·)).getD [] ++ rest) := by
  cases starts : numeral.whole with
  | nil =>
    obtain ⟨digits, fraction, _⟩ := proper.digits starts
    rw [Option.mem_def.mp fraction]
    rintro c ⟨⟩
    rfl
  | cons d ds =>
    rw [List.append_assoc]
    exact avoids_sign_digits (List.cons_ne_nil d ds) (starts ▸ proper.whole) _

/-- What follows a numeral and is no part of it. -/
structure Ends (rest : List Char) : Prop where
  digit : Avoids isDigit rest
  point : Avoids (· == '.') rest
  mark : Avoids isPowerMark rest

theorem Ends.power {numeral : Numeral} (proper : numeral.Proper) {rest : List Char}
    (ends : Ends rest) :
    Avoids isDigit ((numeral.power.map Power.chars).getD [] ++ rest) ∧
      Avoids (· == '.') ((numeral.power.map Power.chars).getD [] ++ rest) := by
  cases found : numeral.power with
  | none => exact ⟨ends.digit, ends.point⟩
  | some power =>
    have mark := (proper.power power found).1
    constructor
    · rintro c ⟨⟩
      exact isDigit_of_isPowerMark mark
    · rintro c ⟨⟩
      simp only [isPowerMark, Bool.or_eq_true, beq_iff_eq] at mark
      rcases mark with same | same <;> rw [same] <;> rfl

theorem scan?_chars {numeral : Numeral} (proper : numeral.Proper) {rest : List Char}
    (ends : Ends rest) : scan? (numeral.chars ++ rest) = some (numeral, rest) := by
  obtain ⟨digit, point⟩ := ends.power proper
  have significand := scanSignificand?_chars proper.whole proper.fraction proper.digits digit point
  have power := scanPower_chars proper.power ends.digit ends.mark
  have sign := scanSign_chars proper.sign
    (proper.avoids_sign ((numeral.power.map Power.chars).getD [] ++ rest))
  unfold scan? chars
  simp only [List.append_assoc] at sign significand ⊢
  rw [sign]
  simp only [significand, power]

theorem isSign_scanSign (cs : List Char) : ∀ c ∈ (scanSign cs).1, isSign c = true := by
  intro c found
  cases cs with
  | nil => cases found
  | cons d ds =>
    rw [scanSign] at found
    split at found
    · next sign =>
      cases found
      exact sign
    · cases found

theorem isDigit_takeWhile (cs : List Char) : ∀ c ∈ cs.takeWhile isDigit, isDigit c = true :=
  List.all_eq_true.mp List.all_takeWhile

theorem scanSignificand?_digits {cs whole rest : List Char} {fraction : Option (List Char)}
    (found : scanSignificand? cs = some (whole, fraction, rest)) :
    (∀ c ∈ whole, isDigit c = true) ∧
      (∀ digits ∈ fraction, ∀ c ∈ digits, isDigit c = true) ∧
      (whole = [] → ∃ digits ∈ fraction, digits ≠ []) := by
  have digits := isDigit_takeWhile cs
  unfold scanSignificand? at found
  split at found
  · cases found
  · next c tail _ _ =>
    split at found
    · next point =>
      cases found
      exact ⟨nofun, by rintro _ ⟨⟩; exact isDigit_takeWhile tail, fun _ => ⟨_, rfl, point.2⟩⟩
    · cases found
  · next d ds taken _ =>
    cases found
    exact ⟨taken ▸ digits, nofun, nofun⟩
  · next d ds c tail taken _ =>
    split at found
    · cases found
      exact ⟨taken ▸ digits, by rintro _ ⟨⟩; exact isDigit_takeWhile tail, nofun⟩
    · cases found
      exact ⟨taken ▸ digits, nofun, nofun⟩

theorem scanPower_proper (cs : List Char) : ∀ power ∈ (scanPower cs).1,
    isPowerMark power.mark = true ∧ (∀ c ∈ power.sign, isSign c = true) ∧ power.digits ≠ [] ∧
      ∀ c ∈ power.digits, isDigit c = true := by
  intro power found
  cases cs with
  | nil => cases found
  | cons c cs =>
    rw [scanPower] at found
    split at found
    · next complete =>
      cases found
      exact ⟨complete.1, isSign_scanSign cs, complete.2, isDigit_takeWhile _⟩
    · cases found

theorem proper_of_scan? {cs rest : List Char} {numeral : Numeral}
    (found : scan? cs = some (numeral, rest)) : numeral.Proper := by
  unfold scan? at found
  split at found
  · cases found
  · next whole fraction tail significand =>
    cases found
    obtain ⟨wholeDigits, fractionDigits, enough⟩ := scanSignificand?_digits significand
    exact ⟨isSign_scanSign cs, wholeDigits, fractionDigits, enough, scanPower_proper tail⟩

def isPart (c : Char) : Bool := isDigit c || isSign c || c == '.' || isPowerMark c

theorem Proper.isPart_chars {numeral : Numeral} (proper : numeral.Proper) :
    ∀ c ∈ numeral.chars, isPart c = true := by
  intro c inside
  obtain ⟨sign, whole, fraction, power⟩ := numeral
  simp only [chars, List.mem_append] at inside
  rcases inside with ((inside | inside) | inside) | inside
  · simp [isPart, proper.sign c (Option.mem_toList.mp inside)]
  · simp [isPart, proper.whole c inside]
  · cases fraction with
    | none => cases inside
    | some digits =>
      rcases List.mem_cons.mp inside with rfl | inside
      · rfl
      · simp [isPart, proper.fraction digits rfl c inside]
  · cases power with
    | none => cases inside
    | some power =>
      obtain ⟨mark, sign, _, digits⟩ := proper.power power rfl
      simp only [Option.map_some, Option.getD_some, Power.chars, List.mem_append,
        List.mem_cons] at inside
      rcases inside with (rfl | inside) | inside
      · simp [isPart, mark]
      · simp [isPart, sign c (Option.mem_toList.mp inside)]
      · simp [isPart, digits c inside]

end Numeral

end Text

end HostLisp
