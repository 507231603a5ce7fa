/-!
Tokens: pieces of program text with their lexical kind.
-/

namespace HostLisp

namespace Token

/-- The lexical kinds. Tokens handed in from outside may also carry a kind that is not one of
them. -/
inductive Kind where
  | openList
  | closeList
  | openVector
  | closeVector
  | quote
  | number
  | string
  | symbol
  | comment
  | blank
  | newline
  | foreign (label : String)
deriving DecidableEq, Repr

namespace Kind

def label : Kind → String
  | openList => "lparen"
  | closeList => "rparen"
  | openVector => "lvect"
  | closeVector => "rvect"
  | quote => "quote"
  | number => "number"
  | string => "string"
  | symbol => "symbol"
  | comment => "comment"
  | blank => "whitespace"
  | newline => "newline"
  | foreign label => label

def lexical : List Kind :=
  [openList, closeList, openVector, closeVector, quote, number, string, symbol, comment, blank,
    newline]

def ofLabel (label : String) : Kind :=
  (lexical.find? (·.label = label)).getD (foreign label)

/-- Layout separates forms and has no meaning of its own. -/
def isLayout : Kind → Bool
  | comment => true
  | blank => true
  | newline => true
  | _ => false

end Kind

end Token

structure Token where
  kind : Token.Kind
  text : String
deriving DecidableEq, Repr

end HostLisp
