import HostLisp.Store

/-!
The bindings that sessions start with: the constants and forms of the core, and the catalogue of
functions that a host may add to them.
-/

namespace HostLisp

structure Binding where
  name : String
  value : Value
  doc : Option String := none

namespace Binding

def native (name : String) (function : Native) (doc : Option String := none) : Binding :=
  ⟨name, .native function, doc⟩

def form (operator : Form) : Binding := ⟨operator.name, .form operator, some operator.usage⟩

def adapter (function : Native) (name : String) (types : List TypeExpr)
    (doc : Option String := none) : Binding :=
  ⟨name, .adapter (.native function) name (.exactly types) {}, doc⟩

def core : List Binding :=
  [⟨"true", .bool true, some "Represents logical true"⟩,
    ⟨"false", .bool false, some "Represents logical false"⟩,
    ⟨"nil", .nil, some "Represents the unset value. Fails a cond test like false"⟩] ++
  Form.core.map form ++
  [adapter .typeOf "type" [.unannotated]
    (some "Returns the Python type of the value.\nUsage: (type expr)")]

def catalogue : List Binding :=
  [native "add" .add (some "Usage: (add a b)"),
    native "sub" .sub,
    native "*" .mul,
    native "div" .divide,
    native "<" .less,
    native "=" .equal,
    native "narrow" .narrow,
    native "repeat" .repeatText,
    native "total" .total,
    native "pair" .pair,
    native "shape" .shape,
    native "apply-twice" .applyTwice,
    native "map" .map (some "  "),
    native "greet" .greet,
    native "flag" .flag,
    native "clamp" .clamp,
    native "opt" .opt,
    native "kw" .keyword,
    native "boom" .boom,
    native "fail" .fail,
    native "ident" .ident,
    native "pack" .pack,
    native "as-tuple" .asTuple,
    native "as-i8" .asInt8,
    native "as-f32" .asSingle,
    native "as-int" .asInt,
    native "record" .record,
    native "call" .call,
    native "get-macro" .captureOperator,
    ⟨"capture", .operative (.native .capture) "capture" {}, some "Shows how it was called"⟩,
    adapter .half "half" [.kind .float],
    adapter .shout "shout" [.kind .text],
    adapter .times "times" [.kind .int, .kind .int],
    native "concat" .concat,
    native "max" .greatest,
    native "len" .length,
    native "exit" .cancel,
    ⟨"two", .float (.finite 2), none⟩]

end Binding

namespace Store

def bindAll (store : Store) (id : ScopeId) (bindings : List Binding) : Store :=
  bindings.foldl (fun store binding => store.bind id binding.name binding.value binding.doc) store

def addRoot (store : Store) (bindings : List Binding) : Store × ScopeId :=
  (store.fresh.1.bindAll store.fresh.2 bindings, store.fresh.2)

def withRoot (bindings : List Binding) : Store := (empty.addRoot bindings).1

end Store

end HostLisp
