import HostLisp.Text.Quoted

/-!
Written trees: the structure of a value that is to be written out, on one line or on several.
-/

namespace HostLisp

inductive Tree where
  /-- What is written may leave out characters that count when lines are laid out. -/
  | leaf (written : String) (unseen : Nat := 0)
  | text (s : String)
  | list (items : List Tree)
  | tuple (items : List Tree)
  /-- A named node with one labelled part. -/
  | node (name label : String) (part : Tree)

namespace Tree

/-- A tuple of one item ends in a comma. -/
def tupleEnd (count : Nat) : String := if count = 1 then ",)" else ")"

mutual

def line : Tree → String
  | leaf written _ => written
  | text s => Text.quoted s
  | list items => "[" ++ ", ".intercalate (lines items) ++ "]"
  | tuple items => "(" ++ ", ".intercalate (lines items) ++ tupleEnd items.length
  | node name label part => name ++ "(" ++ label ++ "=" ++ line part ++ ")"

def lines : List Tree → List String
  | [] => []
  | tree :: trees => line tree :: lines trees

end

def total : List Nat → Nat
  | [] => 0
  | count :: counts => count + total counts

mutual

def unseen : Tree → Nat
  | leaf _ count => count
  | text _ => 0
  | list items => unseenAll items
  | tuple items => unseenAll items
  | node _ _ part => unseen part

def unseenAll : List Tree → Nat
  | [] => 0
  | tree :: trees => unseen tree + unseenAll trees

end

def room (tree : Tree) : Nat := tree.line.length + tree.unseen

end Tree

end HostLisp
