import HostLisp.Signature

/-!
The native functions that programs can be given, with their names and signatures. What each of
them computes is defined where values are.
-/

namespace HostLisp

inductive Native where
  | add
  | sub
  | mul
  | divide
  | less
  | equal
  | narrow
  | repeatText
  | total
  | pair
  | shape
  | applyTwice
  | map
  | greet
  | flag
  | clamp
  | opt
  | keyword
  | boom
  | fail
  | ident
  | pack
  | asTuple
  | asInt8
  | asSingle
  | asInt
  | record
  | call
  /-- Shows how it was called, as the function of an operator that takes code. -/
  | capture
  | captureOperator
  | half
  | shout
  | times
  | concat
  | greatest
  | length
  | cancel
  | typeOf
  /-- A two-place function whose first argument is fixed to one. -/
  | afterOne
  /-- Lists its arguments, under a name and a signature of its own. -/
  | echo (name : String) (signature : Signature)

namespace Native

def kind : Native → Kind
  | greatest => .builtin
  | length => .builtin
  | afterOne => .partialApplication
  | _ => .function

/-- The name of a function, which a partial application does not have. -/
def name? : Native → Option String
  | add => some "add"
  | sub => some "sub"
  | mul => some "mul"
  | divide => some "divide"
  | less => some "lt"
  | equal => some "eq"
  | narrow => some "narrow"
  | repeatText => some "repeat"
  | total => some "total"
  | pair => some "pair"
  | shape => some "shape"
  | applyTwice => some "apply_twice"
  | map => some "map_"
  | greet => some "greet"
  | flag => some "flag"
  | clamp => some "clamp"
  | opt => some "opt"
  | keyword => some "kw"
  | boom => some "boom"
  | fail => some "fail"
  | ident => some "ident"
  | pack => some "pack"
  | asTuple => some "as_tuple"
  | asInt8 => some "as_i8"
  | asSingle => some "as_f32"
  | asInt => some "as_int"
  | record => some "record"
  | call => some "call"
  | capture => some "capture"
  | captureOperator => some "get_macro"
  | half => some "half"
  | shout => some "shout"
  | times => some "times"
  | concat => some "<lambda>"
  | greatest => some "max"
  | length => some "len"
  | cancel => some "cancel"
  | typeOf => some "type_of"
  | afterOne => none
  | echo name _ => some name

def name (native : Native) : String := native.name?.getD native.kind.name

def typed (name : String) (type : TypeExpr) : Parameter := { name, declares := .type type }

def untyped (name : String) : Parameter := { name }

def many (name : String) (declares : Declaration := .absent) : Parameter :=
  { name, declares, role := .rest }

def optional (parameter : Parameter) : Parameter := { parameter with optional := true }

def signature? : Native → Option Signature
  | add | sub | divide | less => some (.ofParams [typed "a" (.kind .float), typed "b" (.kind .float)])
  | mul => some (.ofParams [many "xs" (.type (.kind .float))])
  | equal => some (.ofParams [untyped "a", untyped "b"])
  | narrow => some (.ofParams [typed "a" (.kind (.machineInt .int8)),
    typed "b" (.kind (.machineInt .int16))])
  | repeatText => some (.ofParams [typed "s" (.kind .text), typed "n" (.kind .int)])
  | total => some (.ofParams [typed "xs" (.sequenceOf .list [.kind .int])])
  | pair => some (.ofParams [typed "p" (.tupleExactly .tuple [.kind .text, .kind .float])])
  | shape => some (.ofParams [typed "v" (.kind .array)])
  | applyTwice =>
    some (.ofParams [typed "f" (.callableOf [.kind .float] (.kind .float)), typed "x" (.kind .float)])
  | map => some (.ofParams [typed "f" (.callable .named), typed "xs" (.kind .list)])
  | greet => some (.ofParams [optional (typed "name" (.union .named [.kind .text, .kind .nil]))])
  | flag => some (.ofParams [typed "b" (.kind .bool)])
  | clamp =>
    some (.ofParams [typed "x" (.kind .float), optional (typed "lo" (.kind .float)),
      optional (typed "hi" (.kind .float))])
  | opt =>
    some (.ofParams [typed "a" (.kind .int), optional (typed "b" (.kind .float)),
      many "rest" (.type (.kind .text))])
  | keyword => some (.ofParams [{ name := "flag", role := .keywordOnly }])
  | capture => some (.ofParams [untyped "scope", untyped "name", untyped "exprs"])
  | boom | captureOperator | cancel => some (.ofParams [])
  | fail => some (.ofParams [typed "message" (.kind .text)])
  | ident | record => some (.ofParams [untyped "x"])
  | pack | asTuple | concat => some (.ofParams [many "xs"])
  | asInt8 => some (.ofParams [typed "x" (.kind (.machineInt .int8))])
  | asSingle => some (.ofParams [typed "x" (.kind (.machineFloat .single))])
  | asInt => some (.ofParams [typed "x" (.kind .int)])
  | call => some (.ofParams [untyped "f", typed "args" (.kind .list)])
  | half => some (.ofParams [typed "x" (.kind .float)])
  | shout => some (.ofParams [untyped "s"])
  | times => some (.ofParams [untyped "a", untyped "b"])
  | greatest => none
  | length => some (.ofParams [{ name := "obj", role := .positionalOnly }])
  | typeOf => some (.ofParams [untyped "value"])
  | afterOne => some (.ofParams [untyped "b"])
  | echo _ signature => some signature

end Native

namespace Kind

def signature? : Kind → Option Signature
  | float => some (.ofParams [{ name := "x", role := .positionalOnly, optional := true }])
  | complex => some (.ofParams [Native.optional (Native.untyped "real"),
    Native.optional (Native.untyped "imag")])
  | list | tuple => some (.ofParams [{ name := "iterable", role := .positionalOnly, optional := true }])
  | function =>
    some (.ofParams [Native.untyped "code", Native.untyped "globals",
      Native.optional (Native.untyped "name"),
      Native.optional (Native.untyped "argdefs"), Native.optional (Native.untyped "closure")])
  | builtin => some (.ofParams [])
  | form => some (.ofParams [Native.untyped "fn", Native.optional (Native.untyped "name")])
  | closure => some (.ofParams [Native.untyped "params", Native.untyped "body", Native.untyped "scope"])
  | adapter =>
    some (.ofParams [Native.untyped "fn", Native.optional (Native.untyped "params"),
      { name := "name", role := .keywordOnly, optional := true }])
  | scope => some (.ofParams [Native.optional (Native.untyped "outer")])
  | symbolExpr => some (.ofParams [Native.typed "name" (.kind .text)])
  | stringExpr => some (.ofParams [Native.typed "raw" (.kind .text)])
  | numberExpr =>
    some (.ofParams [Native.typed "raw" (.kind .text),
      Native.optional (Native.typed "_value" (.union .barred [.kind .float, .kind .nil]))])
  | listExpr | vectorExpr =>
    some (.ofParams [Native.optional (Native.typed "items" (.tupleOf .tuple .expression))])
  | programExpr => some (.ofParams [Native.optional (Native.typed "forms" (.tupleOf .tuple .expression))])
  | quoteExpr => some (.ofParams [Native.typed "expr" .expression])
  | valueExpr => some (.ofParams [Native.typed "value" .anything])
  | _ => none

end Kind

end HostLisp
