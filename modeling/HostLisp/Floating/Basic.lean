import HostLisp.Stamp

/-!
Floating-point numbers as exact dyadic numbers. A binary format is its precision and exponent
range, and rounding sends every rational to the nearest number of a format, a half to the even
neighbour.
-/

namespace HostLisp

/-- A dyadic number, or one of the values that floating-point formats have beside them. A NaN carries
the stamp of the moment at which it arose. -/
inductive Floating where
  | nan (stamp : Stamp)
  | infinity (negative : Bool)
  | negativeZero
  | finite (value : Dyadic)
deriving DecidableEq

/-- A format holds the multiples of `2 ^ least` below `2 ^ limit` that have at most `precision`
significant bits. -/
structure BinaryFormat where
  precision : Nat
  least : Int
  limit : Int
deriving DecidableEq

namespace BinaryFormat

def half : BinaryFormat := ⟨11, -24, 16⟩

def single : BinaryFormat := ⟨24, -149, 128⟩

def double : BinaryFormat := ⟨53, -1074, 1024⟩

end BinaryFormat

def roundQuotient (num den : Nat) : Nat :=
  let quotient := num / den
  let twice := 2 * (num % den)
  if twice < den then quotient
  else if den < twice then quotient + 1
  else quotient + quotient % 2

/-- The greatest `l` with `2 ^ l ≤ num / den`, for positive `num` and `den`. -/
def floorLog2 (num den : Nat) : Int :=
  let guess : Int := (num.log2 : Int) - den.log2
  if den <<< guess.toNat ≤ num <<< (-guess).toNat then guess else guess - 1

namespace Floating

def invalid : Floating := nan {}

def isNaN : Floating → Bool
  | nan _ => true
  | _ => false

def stamped (stamp : Stamp) : Floating → Floating
  | nan _ => nan stamp
  | x => x

def zero (negative : Bool) : Floating := if negative then negativeZero else finite 0

def ofScaled (negative : Bool) (mantissa : Nat) (exponent : Int) : Floating :=
  if mantissa = 0 then zero negative
  else finite (Dyadic.ofIntWithPrec (if negative then -mantissa else mantissa) (-exponent))

def isNegative : Floating → Bool
  | nan _ => false
  | infinity negative => negative
  | negativeZero => true
  | finite value => value < 0

def neg : Floating → Floating
  | nan stamp => nan stamp
  | infinity negative => infinity !negative
  | negativeZero => finite 0
  | finite value => if value = 0 then negativeZero else finite (-value)

def abs (x : Floating) : Floating := if x.isNegative then x.neg else x

def toDyadic? : Floating → Option Dyadic
  | nan _ => none
  | infinity _ => none
  | negativeZero => some 0
  | finite value => some value

def isFinite (x : Floating) : Bool := x.toDyadic?.isSome

end Floating

namespace BinaryFormat

def digits (format : BinaryFormat) : Nat := (format.precision - 1) * 30103 / 100000

/-- The exponent of the unit in the last place at the positive rational `num / den`. -/
def unit (format : BinaryFormat) (num den : Nat) : Int :=
  max format.least (floorLog2 num den - (format.precision - 1 : Int))

def roundFraction (format : BinaryFormat) (negative : Bool) (num den : Nat) : Floating :=
  if num = 0 then Floating.zero negative
  else
    let unit := format.unit num den
    let mantissa := roundQuotient (num <<< (-unit).toNat) (den <<< unit.toNat)
    if mantissa ≠ 0 ∧ format.limit ≤ mantissa.log2 + unit then Floating.infinity negative
    else Floating.ofScaled negative mantissa unit

def round (format : BinaryFormat) (x : Rat) : Floating :=
  format.roundFraction (x.num < 0) x.num.natAbs x.den

def cast (format : BinaryFormat) : Floating → Floating
  | .finite value => format.round value.toRat
  | x => x

def greatest (format : BinaryFormat) : Dyadic :=
  Dyadic.ofIntWithPrec ((1 <<< format.precision : Nat) - 1 : Int) (format.precision - format.limit)

end BinaryFormat

end HostLisp
