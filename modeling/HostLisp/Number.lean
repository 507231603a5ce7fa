import HostLisp.Comparison
import HostLisp.Floating.Arithmetic

/-!
Numbers of all kinds and how they compare: exactly by their values, or by what they become in a
binary format.
-/

namespace HostLisp

inductive Number where
  | exact (n : Int)
  | floating (x : Floating)
  | complex (re im : Floating)

namespace Number

def ofBool (b : Bool) : Number := exact (if b then 1 else 0)

def eq : Number → Number → Bool
  | exact m, exact n => m == n
  | exact m, floating y => y.compareInt m == some .eq
  | floating x, exact n => x.compareInt n == some .eq
  | floating x, floating y => x.eq y
  | complex re im, exact n => re.compareInt n == some .eq && im.isZero
  | exact m, complex re im => re.compareInt m == some .eq && im.isZero
  | complex re im, floating y => re.eq y && im.isZero
  | floating x, complex re im => re.eq x && im.isZero
  | complex a b, complex c d => a.eq c && b.eq d

def lt? : Number → Number → Option Bool
  | exact m, exact n => some (m < n)
  | exact m, floating y => some (y.compareInt m == some .gt)
  | floating x, exact n => some (x.compareInt n == some .lt)
  | floating x, floating y => some (x.lt y)
  | _, _ => none

def holds? : Comparison → Number → Number → Option Bool
  | .equal, a, b => some (a.eq b)
  | .less, a, b => a.lt? b
  | .greater, a, b => b.lt? a

/-- The real and the imaginary part of a number in a format. A whole number goes through double
precision, and one that exceeds it has no parts. -/
def parts? (format : BinaryFormat) : Number → Option (Floating × Floating)
  | exact n =>
    match Floating.ofInt n with
    | .infinity _ => none
    | x => some (format.cast x, .finite 0)
  | floating x => some (format.cast x, .finite 0)
  | complex re im => some (format.cast re, format.cast im)

def before (a b : Floating × Floating) : Bool :=
  (a.1.lt b.1 && !a.2.isNaN && !b.2.isNaN) || (a.1.eq b.1 && a.2.lt b.2)

/-- A comparison in a format. Whole numbers compare exactly. -/
def holdsIn? (format : BinaryFormat) (comparison : Comparison) : Number → Number → Option Bool
  | exact m, exact n => some (comparison.holdsOf (m < n) (n < m))
  | a, b => do
    let x ← a.parts? format
    let y ← b.parts? format
    return match comparison with
      | .equal => x.1.eq y.1 && x.2.eq y.2
      | .less => before x y
      | .greater => before y x

end Number

end HostLisp
