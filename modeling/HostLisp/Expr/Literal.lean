import HostLisp.Floating.Decimal
import HostLisp.Value.Basic

/-!
What literals denote. A string literal stands between double quotes and knows two escapes; every
other backslash is a character of its own.
-/

namespace HostLisp.Expr

/-- The text between a pair of double quotes, or the whole text when they are missing. -/
def unwrap (cs : List Char) : List Char :=
  if 2 ≤ cs.length ∧ cs.head? = some '"' ∧ cs.getLast? = some '"' then cs.tail.dropLast else cs

def unescape (letter replacement : Char) : List Char → List Char
  | c :: d :: rest =>
    if c = '\\' ∧ d = letter then replacement :: unescape letter replacement rest
    else c :: unescape letter replacement (d :: rest)
  | cs => cs

def literalText (raw : String) : String :=
  String.ofList (unescape 'n' '\n' (unescape '"' '"' (unwrap raw.toList)))

def literalNumber? (raw : String) : Option Floating → Option Floating
  | some x => some x
  | none => Floating.ofText? raw

end HostLisp.Expr
