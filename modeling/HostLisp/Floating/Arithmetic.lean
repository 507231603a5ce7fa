import HostLisp.Floating.Basic

/-!
Arithmetic and order of floating-point numbers: every operation is exact and then rounded once to
double precision.
-/

namespace HostLisp.Floating

def ofInt (n : Int) : Floating := BinaryFormat.double.round n

def toInt? : Floating → Option Int
  | nan _ => none
  | infinity _ => none
  | negativeZero => some 0
  | finite value => if value.toRat.den = 1 then some value.toRat.num else none

def isZero (x : Floating) : Bool := x.toDyadic? = some 0

def add : Floating → Floating → Floating
  | nan stamp, _ => nan stamp
  | _, nan stamp => nan stamp
  | infinity a, infinity b => if a = b then infinity a else invalid
  | infinity a, _ => infinity a
  | _, infinity b => infinity b
  | negativeZero, y => y
  | x, negativeZero => x
  | finite a, finite b => BinaryFormat.double.round (a + b).toRat

def sub (x y : Floating) : Floating := x.add y.neg

def mul (x y : Floating) : Floating :=
  let negative := x.isNegative != y.isNegative
  match x.toDyadic?, y.toDyadic? with
  | some a, some b =>
    if a * b = 0 then zero negative else BinaryFormat.double.round (a * b).toRat
  | _, _ =>
    if x.isNaN || y.isNaN || x.isZero || y.isZero then invalid else infinity negative

def div (x y : Floating) : Floating :=
  let negative := x.isNegative != y.isNegative
  match x, y with
  | nan stamp, _ => nan stamp
  | _, nan stamp => nan stamp
  | infinity _, infinity _ => invalid
  | infinity _, _ => infinity negative
  | _, infinity _ => zero negative
  | x, y =>
    match x.toDyadic?, y.toDyadic? with
    | some a, some b =>
      if b = 0 then (if a = 0 then invalid else infinity negative)
      else if a = 0 then zero negative
      else BinaryFormat.double.round (a.toRat / b.toRat)
    | _, _ => invalid

def lt : Floating → Floating → Bool
  | nan _, _ => false
  | _, nan _ => false
  | infinity a, infinity b => a && !b
  | infinity a, _ => a
  | _, infinity b => !b
  | negativeZero, negativeZero => false
  | negativeZero, finite b => 0 < b
  | finite a, negativeZero => a < 0
  | finite a, finite b => a < b

/-- Equality of numbers: the two zeros are equal, and nothing equals a NaN. -/
def eq : Floating → Floating → Bool
  | nan _, _ => false
  | _, nan _ => false
  | infinity a, infinity b => a == b
  | infinity _, _ => false
  | _, infinity _ => false
  | x, y => x.toDyadic? == y.toDyadic?

def compareInt (x : Floating) (n : Int) : Option Ordering :=
  match x with
  | nan _ => none
  | infinity negative => some (if negative then .lt else .gt)
  | negativeZero => some (compare 0 n)
  | finite value =>
    let exact := Dyadic.ofInt n
    some (if value < exact then .lt else if value = exact then .eq else .gt)

end HostLisp.Floating
