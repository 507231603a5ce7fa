import HostLisp.Floating.Shortest

/-!
Floating-point numbers in a column. Their points stand below each other, they have at most eight
decimals, and numbers of very different or extreme size are written with powers of ten.
-/

namespace HostLisp.Column

structure Style where
  format : BinaryFormat
  signed : Bool := false

def decimals : Nat := 8

/-- The parts of a number before and after its point, and its power of ten. -/
structure Cell where
  whole : List Char
  fraction : List Char
  power : Option Int

def pointed : DecimalStyle := { DecimalStyle.plain with wholeMark := "." }

def roundedAt (x : Rat) (scale : Int) : DecimalDigits :=
  let scaled := x / (10 : Rat) ^ scale
  DecimalDigits.ofScaled (roundQuotient scaled.num.natAbs scaled.den) scale

def digitsTo (format : BinaryFormat) (x : Rat) (scale : Int) : DecimalDigits :=
  let shortest := DecimalDigits.shortest format x
  if scale ≤ shortest.exponent + 1 - shortest.digits.length then shortest else roundedAt x scale

def positionalCell (format : BinaryFormat) (x : Rat) : Cell :=
  let written := (pointed.positional (digitsTo format x (-decimals))).toList
  ⟨written.takeWhile (· ≠ '.'), (written.dropWhile (· ≠ '.')).drop 1, none⟩

def powerCell (number : DecimalDigits) : Cell :=
  ⟨number.digits.take 1, number.digits.drop 1, some number.exponent⟩

def positiveCell (format : BinaryFormat) (powers : Bool) (x : Rat) : Cell :=
  if powers then powerCell (digitsTo format x (floorLog10 x - decimals))
  else positionalCell format x

def Style.sign (style : Style) (x : Floating) : List Char :=
  if x.isNegative then ['-'] else if style.signed then ['+'] else []

def Style.cell? (style : Style) (powers : Bool) (positive : Rat → Cell) (x : Floating) :
    Option Cell :=
  x.abs.toDyadic?.map fun value =>
    let size := value.toRat
    let cell := if size = 0 then ⟨['0'], [], if powers then some 0 else none⟩ else positive size
    { cell with whole := style.sign x ++ cell.whole }

def greatest (numbers : List Nat) : Nat := numbers.foldl max 0

def sizes (xs : List Floating) : List Rat :=
  (xs.filterMap fun x => x.abs.toDyadic?.map Dyadic.toRat).filter (· ≠ 0)

def quotientExceeds (format : BinaryFormat) (x y bound : Rat) : Bool :=
  match format.round (x / y) with
  | .finite value => bound < value.toRat
  | .infinity _ => true
  | _ => false

def isBelow (format : BinaryFormat) (x bound : Rat) : Bool :=
  match format.cast (BinaryFormat.double.round bound) with
  | .finite value => x < value.toRat
  | _ => false

/-- Powers of ten are written if a number has too many digits before its point or too many zeros
after it, or if one number is more than a thousand times another one. -/
def needsPowers (format : BinaryFormat) (xs : List Floating) : Bool :=
  match sizes xs with
  | [] => false
  | size :: sizes =>
    let most := sizes.foldl (fun x y => if x < y then y else x) size
    let least := sizes.foldl (fun x y => if y < x then y else x) size
    (Nat.pow 10 (min decimals format.digits) : Nat) ≤ most || isBelow format least (1 / 10000) ||
      quotientExceeds format most least 1000

def spaces (count : Nat) : List Char := List.replicate count ' '

def powerDigits (power : Int) : List Char := Nat.toDigits 10 power.natAbs

structure Widths where
  whole : Nat
  fraction : Nat
  power : Nat

def widths (cells : List Cell) : Widths :=
  { whole := greatest (cells.map (·.whole.length))
    fraction := greatest (cells.map (·.fraction.length))
    power := greatest (cells.map fun cell =>
      (cell.power.map fun power => max 2 (powerDigits power).length).getD 0) }

def Widths.right (widths : Widths) : Nat :=
  1 + widths.fraction + (if widths.power = 0 then 0 else 2 + widths.power)

def Cell.write (widths : Widths) (cell : Cell) : List Char :=
  spaces (widths.whole - cell.whole.length) ++ cell.whole ++ '.' :: cell.fraction ++
    (match cell.power with
      | none => spaces (widths.fraction - cell.fraction.length)
      | some power =>
        List.replicate (widths.fraction - cell.fraction.length) '0' ++
          ['e', if power < 0 then '-' else '+'] ++
          List.replicate (widths.power - (powerDigits power).length) '0' ++ powerDigits power)

/-- The cell of a positive number that is known to take as many decimals as the widths say. With a
power of ten all of them are its own. -/
def finalCell (format : BinaryFormat) (powers : Bool) (widths : Widths) (x : Rat) : Cell :=
  if powers then powerCell (roundedAt x (floorLog10 x - widths.fraction))
  else positionalCell format x

def Style.nameOf (style : Style) (x : Floating) : List Char :=
  (if style.signed && !x.isNegative then ['+'] else []) ++ (x.toText pointed style.format).toList

def Style.nameWidth (style : Style) (x : Floating) : Nat :=
  if style.signed then 4 else (style.nameOf x).length

def Style.write (style : Style) (xs : List Floating) : List String :=
  let powers := needsPowers style.format xs
  let widths := widths (xs.filterMap (style.cell? powers (positiveCell style.format powers)))
  let left := greatest (widths.whole ::
    (xs.filter (!·.isFinite)).map fun x => style.nameWidth x - widths.right)
  xs.map fun x =>
    String.ofList (match style.cell? powers (finalCell style.format powers widths) x with
      | some cell => cell.write { widths with whole := left }
      | none => spaces (left + widths.right - (style.nameOf x).length) ++ style.nameOf x)

end HostLisp.Column
