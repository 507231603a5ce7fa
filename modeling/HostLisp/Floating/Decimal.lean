import HostLisp.Floating.Basic
import HostLisp.Text.Blank
import HostLisp.Text.Numeral

/-!
Reading floating-point numbers from decimal text. The text may be padded with blanks, digits may
be grouped by single underscores, and the names of infinity and NaN are known in any case.
-/

namespace HostLisp

open Text

structure Decimal where
  negative : Bool
  digits : Nat
  exponent : Int
deriving DecidableEq

namespace Decimal

def ofNumeral (numeral : Numeral) : Decimal :=
  let fraction := numeral.fraction.getD []
  let power : Int := match numeral.power with
    | none => 0
    | some power =>
      if power.sign = some '-' then -(digitsValue power.digits : Int)
      else digitsValue power.digits
  { negative := numeral.sign = some '-'
    digits := digitsValue (numeral.whole ++ fraction)
    exponent := power - fraction.length }

def magnitude (decimal : Decimal) : Int :=
  (Nat.toDigits 10 decimal.digits).length + decimal.exponent

/-- The decimal rounded to a format. Magnitudes beyond four hundred lie outside every format, so
no large power of ten is computed for them. -/
def toFloating (format : BinaryFormat) (decimal : Decimal) : Floating :=
  if decimal.digits = 0 then Floating.zero decimal.negative
  else if 400 < decimal.magnitude then Floating.infinity decimal.negative
  else if decimal.magnitude < -400 then Floating.zero decimal.negative
  else format.roundFraction decimal.negative
    (decimal.digits * Nat.pow 10 decimal.exponent.toNat) (Nat.pow 10 (-decimal.exponent).toNat)

end Decimal

namespace Floating

/-- Removes the underscores that group digits; an underscore elsewhere is refused. `afterDigit`
says whether a digit stands before the text. -/
def ungroup? (afterDigit : Bool) : List Char → Option (List Char)
  | [] => some []
  | c :: cs =>
    if c = '_' then
      if afterDigit && (cs.head?.map isDigit).getD false then ungroup? false cs else none
    else (ungroup? (isDigit c) cs).map (c :: ·)

def named? (negative : Bool) (name : String) : Option Floating :=
  if name = "inf" || name = "infinity" then some (infinity negative)
  else if name = "nan" then some invalid
  else none

def ofText? (text : String) : Option Floating :=
  let trimmed := trimBoth (fun c => isBlank c && !isSeparator c) text.toList
  let (sign, body) := Numeral.scanSign trimmed
  match named? (sign = some '-') (String.ofList (body.map Char.toLower)) with
  | some value => some value
  | none => do
    let plain ← ungroup? false trimmed
    let numeral ← Numeral.ofChars? plain
    return (Decimal.ofNumeral numeral).toFloating .double

end Floating

end HostLisp
