import HostLisp.Text.Blank
import HostLisp.Text.Lines
import HostLisp.Tree

/-!
Laying out written trees in lines of at most eighty characters. What does not fit on its line is
broken between its items, and a long text between its lines and words.
-/

namespace HostLisp.Layout

open Text

def width : Nat := 80

def newline (indent : Nat) : String := "\n" ++ String.ofList (List.replicate indent ' ')

def textWords : List Char → List (List Char)
  | [] => []
  | c :: cs =>
    match textWords cs with
    | [] => [[c]]
    | word :: words =>
      if isBlank c && !(word.head?.map isBlank).getD false then [c] :: word :: words
      else (c :: word) :: words

def quotedLength (cs : List Char) : Nat := (quotedChars cs).length

/-- Gathers words into chunks that fit. `spare` is the room to leave after the last word. -/
def gather (room spare : Nat) (current : List Char) : List (List Char) → List (List Char)
  | [] => if current.isEmpty then [] else [current]
  | word :: words =>
    let reserved := if words.isEmpty then spare else 0
    if room < quotedLength (current ++ word) + reserved then
      (if current.isEmpty then [] else [current]) ++ gather room spare word words
    else gather room spare (current ++ word) words

def chunks (indent spare : Nat) : List (List Char) → List (List Char)
  | [] => []
  | line :: lines =>
    let reserved := if lines.isEmpty then spare else 0
    (if quotedLength line + indent + reserved ≤ width then [line]
      else gather (width - indent) reserved [] (textWords line)) ++ chunks indent spare lines

def brokenText (indent spare : Nat) (s : String) : String :=
  match chunks indent spare (textLines s.toList) with
  | [] => quoted s
  | [_] => quoted s
  | pieces => (newline indent).intercalate (pieces.map fun cs => String.ofList (quotedChars cs))

mutual

def layout (indent spare : Nat) (tree : Tree) : String :=
  if tree.room + indent + spare ≤ width then tree.line
  else
    match tree with
    | .leaf written _ => written
    | .text s => brokenText indent spare s
    | .list items => "[" ++ layoutItems (indent + 1) (spare + 1) items ++ "]"
    | .tuple items =>
      let ending := Tree.tupleEnd items.length
      "(" ++ layoutItems (indent + 1) (spare + ending.length) items ++ ending
    | .node name label part =>
      name ++ "(" ++ label ++ "=" ++
        layout (indent + name.length + 1 + label.length + 1) spare part ++ ")"

def layoutItems (indent spare : Nat) : List Tree → String
  | [] => ""
  | [item] => layout indent spare item
  | item :: next :: items =>
    layout indent 1 item ++ "," ++ newline indent ++ layoutItems indent spare (next :: items)

end

end HostLisp.Layout
