/-!
Removing a word from a text wherever it stands.
-/

namespace HostLisp.Text

/-- Leaves out every occurrence of a word, from left to right, after the given number of
characters that belong to an occurrence already. -/
def removeFrom (word : List Char) : Nat → List Char → List Char
  | _, [] => []
  | skipped + 1, _ :: cs => removeFrom word skipped cs
  | 0, c :: cs =>
    if word.isPrefixOf (c :: cs) then removeFrom word (word.length - 1) cs
    else c :: removeFrom word 0 cs

def remove (word s : String) : String := String.ofList (removeFrom word.toList 0 s.toList)

end HostLisp.Text
