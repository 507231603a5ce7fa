import HostLisp.ReadError
import HostLisp.Token.Lexer
import HostLisp.Value.Basic

/-!
Reading forms from tokens. The reader goes through the tokens once and keeps the brackets and quote
marks that are still open on a stack; its depth is limited.
-/

namespace HostLisp

/-- An open bracket with the forms inside it so far, latest first, or a quote mark that waits for
its form. -/
inductive Frame where
  | list (items : List Expr)
  | vector (items : List Expr)
  | quote

/-- What has been read: the open frames, innermost first, and the finished top-level forms, latest
first. -/
structure Reading where
  stack : List Frame
  forms : List Expr

namespace Reading

def start : Reading := ⟨[], []⟩

def place (form : Expr) : List Frame → List Expr → Reading
  | [], forms => ⟨[], form :: forms⟩
  | .quote :: stack, forms => place (.quote form) stack forms
  | .list items :: stack, forms => ⟨.list (form :: items) :: stack, forms⟩
  | .vector items :: stack, forms => ⟨.vector (form :: items) :: stack, forms⟩

def finish (reading : Reading) (form : Expr) : Reading := place form reading.stack reading.forms

def enter (limit : Nat) (reading : Reading) (frame : Frame) : Except ReadError Reading :=
  if reading.stack.length < limit then .ok ⟨frame :: reading.stack, reading.forms⟩
  else .error .nestingTooDeep

def step (limit : Nat) (reading : Reading) (token : Token) : Except ReadError Reading :=
  match token.kind with
  | .comment => .ok reading
  | .blank => .ok reading
  | .newline => .ok reading
  | .number => .ok (reading.finish (.numeral token.text))
  | .string => .ok (reading.finish (.string token.text))
  | .symbol => .ok (reading.finish (.symbol token.text))
  | .openList => reading.enter limit (.list [])
  | .openVector => reading.enter limit (.vector [])
  | .quote => reading.enter limit .quote
  | .closeList =>
    match reading.stack with
    | .list items :: stack => .ok (place (.list items.reverse) stack reading.forms)
    | _ => .error (.unexpectedCloser token.text)
  | .closeVector =>
    match reading.stack with
    | .vector items :: stack => .ok (place (.vector items.reverse) stack reading.forms)
    | _ => .error (.unexpectedCloser token.text)
  | .foreign label => .error (.unknownToken label)

def run (limit : Nat) (reading : Reading) : List Token → Reading × Option ReadError
  | [] => (reading, if reading.stack.isEmpty then none else some .unexpectedEnd)
  | token :: tokens =>
    match reading.step limit token with
    | .ok next => next.run limit tokens
    | .error error => (reading, some error)

end Reading

namespace Expr

def nestingLimit : Nat := 1000

def readForms (tokens : List Token) (limit : Nat := nestingLimit) :
    List Expr × Option ReadError :=
  let outcome := Reading.start.run limit tokens
  (outcome.1.forms.reverse, outcome.2)

def readSource (source : String) (limit : Nat := nestingLimit) : List Expr × Option ReadError :=
  let scan := Token.scan source
  match scan.unterminated with
  | some offset => ([], some (.unterminatedString offset))
  | none => readForms scan.tokens limit

/-- One form stands for itself, several make a program, and none is an error. -/
def ofForms : List Expr → Except ReadError Expr
  | [] => .error .unexpectedEnd
  | [form] => .ok form
  | forms => .ok (.program forms)

def ofOutcome (sourceName : Option String) (outcome : List Expr × Option ReadError) :
    Except ReadFailure Expr :=
  match outcome.2 with
  | some error => .error ⟨error, sourceName⟩
  | none =>
    match ofForms outcome.1 with
    | .ok expr => .ok expr
    | .error error => .error ⟨error, sourceName⟩

def parseTokens (tokens : List Token) (sourceName : Option String := none)
    (limit : Nat := nestingLimit) : Except ReadFailure Expr :=
  ofOutcome sourceName (readForms tokens limit)

def parse (source : String) (sourceName : Option String := none) (limit : Nat := nestingLimit) :
    Except ReadFailure Expr :=
  ofOutcome sourceName (readSource source limit)

end Expr

def tokenize (source : String) (sourceName : Option String := none) :
    Except ReadFailure (List Token) :=
  let scan := Token.scan source
  match scan.unterminated with
  | some offset => .error ⟨.unterminatedString offset, sourceName⟩
  | none => .ok scan.tokens

end HostLisp
