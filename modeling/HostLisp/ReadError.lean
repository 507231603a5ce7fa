import HostLisp.Text.Quoted

/-!
What can be wrong with program text.
-/

namespace HostLisp

inductive ReadError where
  | unterminatedString (offset : Nat)
  | unexpectedEnd
  | unexpectedCloser (text : String)
  | unknownToken (label : String)
  | nestingTooDeep
  | invalidNumber (raw : String)
deriving DecidableEq

namespace ReadError

def message : ReadError → String
  | unterminatedString offset => s!"unterminated string at {offset}"
  | unexpectedEnd => "unexpected end of input"
  | unexpectedCloser text => s!"unexpected '{text}'"
  | unknownToken label => s!"unknown token type: {label}"
  | nestingTooDeep => "nesting too deep"
  | invalidNumber raw => "invalid number literal " ++ Text.quoted raw

/-- Lexical errors concern the split into tokens, all others the forms that tokens build. -/
def isLexical : ReadError → Bool
  | unterminatedString _ => true
  | _ => false

end ReadError

structure ReadFailure where
  error : ReadError
  sourceName : Option String := none
deriving DecidableEq

/-- The message starts with the name of the source, if it has one that is not empty. -/
def ReadFailure.message (failure : ReadFailure) : String :=
  match failure.sourceName with
  | none => failure.error.message
  | some name => if name.isEmpty then failure.error.message else name ++ ": " ++ failure.error.message

end HostLisp
