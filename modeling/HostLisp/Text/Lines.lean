import HostLisp.Text.CodeRange

/-!
The lines of a text.
-/

namespace HostLisp.Text

def isLineEnd (c : Char) : Bool :=
  inRanges [⟨0x0A, 0x0D⟩, ⟨0x1C, 0x1E⟩, ⟨0x85, 0x85⟩, ⟨0x2028, 0x2029⟩] c

/-- The lines of a text with their ends. A carriage return and a line feed end one line together. -/
def textLines : List Char → List (List Char)
  | [] => []
  | c :: cs =>
    if isLineEnd c && !(c == '\r' && cs.head? == some '\n') then [c] :: textLines cs
    else
      match textLines cs with
      | [] => [[c]]
      | line :: lines => (c :: line) :: lines

def bareLines (s : String) : List String :=
  (textLines s.toList).map fun line => String.ofList (line.filter (!isLineEnd ·))

end HostLisp.Text
