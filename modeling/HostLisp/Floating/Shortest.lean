import HostLisp.Floating.Basic

/-!
Decimal text of floating-point numbers: the fewest digits that round back to the number, and of
those the nearest to it.
-/

namespace HostLisp

def floorLog10 (x : Rat) : Int :=
  let guess := (floorLog2 x.num.natAbs x.den * 30103).fdiv 100000
  if (10 : Rat) ^ (guess + 1) ≤ x then guess + 1
  else if x < (10 : Rat) ^ guess then guess - 1
  else guess

/-- The rationals that round to one number of a format. -/
structure RoundingInterval where
  lower : Rat
  upper : Rat
  closed : Bool

namespace RoundingInterval

def contains (interval : RoundingInterval) (x : Rat) : Bool :=
  if interval.closed then interval.lower ≤ x && x ≤ interval.upper
  else interval.lower < x && x < interval.upper

/-- The interval of a positive number of the format. Below a power of two the numbers lie twice as
close, and the ends belong to the interval of an even mantissa. -/
def of (format : BinaryFormat) (x : Rat) : RoundingInterval :=
  let unit := format.unit x.num.natAbs x.den
  let step := (2 : Rat) ^ unit
  let mantissa := (x / step).num.natAbs
  let below := if mantissa = 1 <<< (format.precision - 1) ∧ format.least < unit then step / 4
    else step / 2
  ⟨x - below, x + step / 2, mantissa % 2 = 0⟩

end RoundingInterval

structure DecimalDigits where
  digits : List Char
  exponent : Int

namespace DecimalDigits

def ofScaled (mantissa : Nat) (scale : Int) : DecimalDigits :=
  let digits := Nat.toDigits 10 mantissa
  ⟨(digits.reverse.dropWhile (· = '0')).reverse, scale + digits.length - 1⟩

/-- The neighbours of `x` on the grid of a decimal scale that lie in the interval; of two the nearer
one, and of two equally near the even one. -/
def onGrid (interval : RoundingInterval) (x : Rat) (scale : Int) : Option Nat :=
  let step := (10 : Rat) ^ scale
  let low := (x / step).floor.toNat
  let lowFits := interval.contains (low * step)
  let highFits := interval.contains ((low + 1 : Nat) * step)
  if lowFits && highFits then
    let below := x - low * step
    let above := (low + 1 : Nat) * step - x
    some (if below < above then low else if above < below then low + 1 else low + low % 2)
  else if lowFits then some low
  else if highFits then some (low + 1)
  else none

/-- Seventeen digits tell any two doubles apart, so the search always succeeds on them. -/
def shortest (format : BinaryFormat) (x : Rat) : DecimalDigits :=
  let interval := RoundingInterval.of format x
  let leading := floorLog10 x
  let found := (List.range 17).findSome? fun (more : Nat) =>
    (onGrid interval x (leading - more)).map (ofScaled · (leading - more))
  found.getD (ofScaled (x / (10 : Rat) ^ (leading - 16)).floor.toNat (leading - 16))

end DecimalDigits

structure DecimalStyle where
  positionalFrom : Rat
  positionalBelow : Rat
  wholeMark : String

namespace DecimalStyle

def below (bound : Rat) : DecimalStyle := ⟨1 / 10000, bound, ".0"⟩

def plain : DecimalStyle := below 10000000000000000

def bare : DecimalStyle := { plain with wholeMark := "" }

def positional (style : DecimalStyle) (number : DecimalDigits) : String :=
  let e := number.exponent
  if e < 0 then
    "0." ++ String.ofList (List.replicate (-e - 1).toNat '0' ++ number.digits)
  else
    let places := e.toNat + 1
    if number.digits.length ≤ places then
      String.ofList (number.digits ++ List.replicate (places - number.digits.length) '0') ++
        style.wholeMark
    else
      String.ofList (number.digits.take places) ++ "." ++
        String.ofList (number.digits.drop places)

def scientific (number : DecimalDigits) : String :=
  let fraction := number.digits.drop 1
  let power := toString number.exponent.natAbs
  String.ofList (number.digits.take 1) ++
    (if fraction.isEmpty then "" else "." ++ String.ofList fraction) ++
    (if number.exponent < 0 then "e-" else "e+") ++
    (if power.length < 2 then "0" else "") ++ power

def write (style : DecimalStyle) (format : BinaryFormat) (x : Rat) : String :=
  let number := DecimalDigits.shortest format x
  if style.positionalFrom ≤ x ∧ x < style.positionalBelow then style.positional number
  else scientific number

end DecimalStyle

namespace Floating

def toText (style : DecimalStyle) (format : BinaryFormat) : Floating → String
  | nan _ => "nan"
  | infinity negative => if negative then "-inf" else "inf"
  | negativeZero => "-0" ++ style.wholeMark
  | finite value =>
    let x := value.toRat
    if x = 0 then "0" ++ style.wholeMark
    else if x < 0 then "-" ++ style.write format (-x)
    else style.write format x

def text (x : Floating) : String := x.toText .plain .double

end Floating

end HostLisp
