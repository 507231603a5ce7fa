import HostLisp.Text.CodeRange

/-!
Blank characters separate the words of program text and are trimmed from its ends. They are the
characters with the White_Space property and the four information separators U+001C to U+001F.
-/

namespace HostLisp.Text

def blankRanges : List CodeRange :=
  [⟨0x09, 0x0D⟩, ⟨0x1C, 0x20⟩, ⟨0x85, 0x85⟩, ⟨0xA0, 0xA0⟩, ⟨0x1680, 0x1680⟩, ⟨0x2000, 0x200A⟩,
    ⟨0x2028, 0x2029⟩, ⟨0x202F, 0x202F⟩, ⟨0x205F, 0x205F⟩, ⟨0x3000, 0x3000⟩]

def isBlank (c : Char) : Bool := inRanges blankRanges c

/-- An information separator is blank between words but never trimmed around a number. -/
def isSeparator (c : Char) : Bool := CodeRange.contains ⟨0x1C, 0x1F⟩ c

def trimBoth (remove : Char → Bool) (cs : List Char) : List Char :=
  ((cs.dropWhile remove).reverse.dropWhile remove).reverse

def strip (s : String) : String := String.ofList (trimBoth isBlank s.toList)

def isBlankText (s : String) : Bool := s.toList.all isBlank

end HostLisp.Text
