import HostLisp.Shape
import HostLisp.Text.Blank
import HostLisp.Text.Lines

/-!
The text of arrays: rows stand in brackets, and what does not fit on a line goes on below it. Of a
large array only the outer elements are shown.
-/

namespace HostLisp.Grid

def spaces (count : Nat) : String := String.ofList (List.replicate count ' ')

def padded (width : Nat) (s : String) : String := spaces (width - s.length) ++ s

def longest (texts : List String) : Nat := (texts.map String.length).foldl max 0

def aligned (texts : List String) : List String := texts.map (padded (longest texts))

def trimEnd (s : String) : String :=
  String.ofList (s.toList.reverse.dropWhile Text.isBlank).reverse

structure Block where
  finished : String
  line : String

/-- Puts the lines of a word below each other, each of them after the given start or below its
end. All lines take the room of the longest one. -/
def Block.ofWord (start word : String) : Block :=
  let lines := (Text.bareLines word).zipIdx.map fun (line, index) =>
    (if index = 0 then start else spaces start.length) ++ line
  let last := lines.getLastD start
  ⟨String.join (lines.dropLast.map fun line => trimEnd line ++ "\n"),
    last ++ spaces (longest lines - last.length)⟩

def fill (room indent : Nat) (separator line : String) : List String → String
  | [] => line
  | word :: words =>
    let breaks := room < line.length + longest (Text.bareLines word) && indent < line.length
    let block := Block.ofWord (if breaks then spaces indent else line) word
    (if breaks then trimEnd line ++ "\n" else "") ++ block.finished ++
      fill room indent separator
        (if words.isEmpty then block.line else block.line ++ separator) words

def fullSize : Nat := 1000

def edge : Nat := 3

structure Axis where
  count : Nat
  shortened : Bool

/-- The directions of an array. Those of a large array are shortened if that leaves anything out. -/
def axes (shape : Shape) : List Axis :=
  shape.map fun count =>
    if fullSize < shape.size ∧ 2 * edge < count then ⟨2 * edge, true⟩ else ⟨count, false⟩

def Axis.marked (axis : Axis) (texts : List String) : List String :=
  if axis.shortened then texts.take edge ++ "..." :: texts.drop edge else texts

/-- The elements that are shown when all directions longer than two edges are shortened. -/
def outer {α : Type} : Shape → List α → List α
  | [], items => items
  | count :: shape, items =>
    let rows := Shape.parts (Shape.size shape) count items
    let kept := if 2 * edge < count then rows.take edge ++ rows.drop (count - edge) else rows
    kept.flatMap (outer shape)

def shown {α : Type} (shape : Shape) (items : List α) : List α :=
  if fullSize < shape.size then outer shape items else items

theorem outer_map {α β : Type} (change : α → β) (shape : Shape) (items : List α) :
    outer shape (items.map change) = (outer shape items).map change := by
  induction shape generalizing items with
  | nil => rfl
  | cons count shape ih =>
    simp only [outer, Shape.parts_map, ← List.map_take, ← List.map_drop, ← List.map_append,
      List.map_flatMap]
    split <;> simp only [List.flatMap_map, ih]

theorem shown_map {α β : Type} (change : α → β) (shape : Shape) (items : List α) :
    shown shape (items.map change) = (shown shape items).map change := by
  unfold shown
  split
  · exact outer_map change shape items
  · rfl

def brackets (separator : String) (room indent : Nat) : List Axis → List String → String
  | [], elements => elements.headD ""
  | [axis], elements =>
    let filled := fill (room - 1) indent separator (spaces indent) (axis.marked elements)
    "[" ++ String.ofList (filled.toList.drop indent) ++ "]"
  | axis :: next :: inner, elements =>
    let newlines := String.ofList (List.replicate (inner.length + 1) '\n')
    let rows := Shape.parts (Shape.size ((next :: inner).map Axis.count)) axis.count elements
    "[" ++
      (trimEnd separator ++ newlines ++ spaces indent).intercalate
        (axis.marked (rows.map (brackets separator (room - 1) (indent + 1) (next :: inner)))) ++
      "]"

def lineWidth : Nat := 75

def plain (shape : Shape) (elements : List String) : String :=
  if elements.isEmpty then "[]" else brackets " " lineWidth 1 (axes shape) elements

def lastLength (s : String) : Nat := (s.toList.reverse.takeWhile (· ≠ '\n')).length

def exact (shape : Shape) (elements notes : List String) : String :=
  let opened := "array("
  let body := opened ++
    (if elements.isEmpty then "[]"
      else brackets ", " (lineWidth - 1) (opened.length + 1) (axes shape) elements)
  let ending := ", ".intercalate notes ++ ")"
  if notes.isEmpty then body ++ ")"
  else if lineWidth < lastLength body + ending.length + 2 then
    body ++ ",\n" ++ spaces opened.length ++ ending
  else body ++ ", " ++ ending

end HostLisp.Grid
