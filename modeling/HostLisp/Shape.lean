/-!
Shapes of arrays: the number of elements in each direction. The elements of an array are listed row
by row.
-/

namespace HostLisp

abbrev Shape := List Nat

namespace Shape

def size (shape : Shape) : Nat := shape.foldl (· * ·) 1

def parts {α : Type} (size : Nat) : Nat → List α → List (List α)
  | 0, _ => []
  | count + 1, items => items.take size :: parts size count (items.drop size)

theorem parts_map {α β : Type} (change : α → β) (size count : Nat) (items : List α) :
    parts size count (items.map change) = (parts size count items).map (List.map change) := by
  induction count generalizing items with
  | zero => rfl
  | succ count ih => rw [parts, parts, ← List.map_take, ← List.map_drop, ih, List.map_cons]

def bracketed (separator : String) : Shape → String
  | [n] => s!"({n},)"
  | shape => "(" ++ separator.intercalate (shape.map toString) ++ ")"

def text (shape : Shape) : String := shape.bracketed ", "

def compactText (shape : Shape) : String := shape.bracketed ","

/-- The longer of two directions, if they agree or one of them has a single element. -/
def joinCounts (m n : Nat) : Option Nat :=
  if m = n ∨ n = 1 then some m else if m = 1 then some n else none

def joinReversed : List Nat → List Nat → Option (List Nat)
  | [], ns => some ns
  | ms, [] => some ms
  | m :: ms, n :: ns => do
    let count ← joinCounts m n
    let counts ← joinReversed ms ns
    return count :: counts

def join? (a b : Shape) : Option Shape := (joinReversed a.reverse b.reverse).map List.reverse

def padded (rank : Nat) (shape : Shape) : Shape := List.replicate (rank - shape.length) 1 ++ shape

def spread {α : Type} : Shape → Shape → List α → List α
  | m :: shape, n :: wide, items =>
    let rows := (parts (size shape) m items).map (spread shape wide)
    if m = n then rows.flatten else (List.replicate n rows.flatten).flatten
  | _, _, items => items

def spreadTo {α : Type} (wide shape : Shape) (items : List α) : List α :=
  spread (shape.padded wide.length) wide items

end Shape

end HostLisp
