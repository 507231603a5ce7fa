import HostLisp.Crash
import HostLisp.TypeExpr

/-!
Signatures of host functions and the windows they give: how many arguments a call may have and
which type each of them has to have.
-/

namespace HostLisp

inductive Parameter.Role where
  | positionalOnly
  | positional
  | rest
  | keywordOnly
  | keywordRest
deriving DecidableEq

/-- What a parameter declares. A type may also be named by a text that is resolved later. -/
inductive Declaration where
  | absent
  | type (type : TypeExpr)
  | reference (text : String)

structure Parameter where
  name : String
  declares : Declaration := .absent
  role : Parameter.Role := .positional
  optional : Bool := false

abbrev Parameters := List Parameter

structure Signature where
  params : Parameters
  result : Declaration := .absent

/-- What a text names where it is resolved. Resolving it may also fail. -/
inductive Reference where
  | known (type : TypeExpr)
  | unknown
  | failing (crash : Crash)

structure Arity where
  least : Nat
  most : Option Nat
deriving DecidableEq

namespace Arity

def exactly (count : Nat) : Arity := ⟨count, some count⟩

def accepts (arity : Arity) (count : Nat) : Bool :=
  arity.least ≤ count && (match arity.most with
    | none => true
    | some most => count ≤ most)

def text (arity : Arity) : String :=
  match arity.most with
  | none => s!"at least {arity.least}"
  | some most => if arity.least = most then toString most else s!"{arity.least} to {most}"

end Arity

structure Window where
  params : List TypeExpr
  arity : Arity
  rest : TypeExpr

namespace Window

def everything : Window := ⟨[], ⟨0, none⟩, .unannotated⟩

def exactly (types : List TypeExpr) : Window := ⟨types, .exactly types.length, .unannotated⟩

def typeAt (window : Window) (index : Nat) : TypeExpr := window.params.getD index window.rest

end Window

inductive SignatureError where
  | unresolvable (crash : Crash)
  | keywordRequired (parameter : String)

namespace Parameter

def isPositional (parameter : Parameter) : Bool :=
  match parameter.role with
  | .positionalOnly => true
  | .positional => true
  | _ => false

def isRequiredKeyword (parameter : Parameter) : Bool :=
  parameter.role = .keywordOnly && !parameter.optional

/-- The type of a parameter, given whether the references of its signature resolve. Without them a
reference declares nothing, and other types stay as they are written. -/
def type (names : String → Reference) (resolves : Bool) (parameter : Parameter) : TypeExpr :=
  match parameter.declares with
  | .absent => .unannotated
  | .type type => if resolves then type.resolved else type
  | .reference text =>
    match resolves, names text with
    | true, .known type => type.resolved
    | _, _ => .unannotated

end Parameter

namespace Declaration

def reference? : Declaration → Option String
  | reference text => some text
  | _ => none

end Declaration

namespace Signature

def ofParams (params : Parameters) : Signature := { params }

def declared (signature : Signature) (role : Parameter.Role) : List Declaration :=
  (signature.params.filter (·.role = role)).map Parameter.declares

def references (signature : Signature) : List String :=
  ([.positional, .positionalOnly, .rest, .keywordOnly, .keywordRest].flatMap signature.declared ++
    [signature.result]).filterMap Declaration.reference?

/-- Whether all texts name types. The first one that does not decides. -/
def resolvesAll (names : String → Reference) : List String → Except Crash Bool
  | [] => .ok true
  | text :: texts =>
    match names text with
    | .known _ => resolvesAll names texts
    | .unknown => .ok false
    | .failing crash => .error crash

def resolves (names : String → Reference) (signature : Signature) : Except Crash Bool :=
  resolvesAll names signature.references

/-- The arguments that a signature takes by position. A required keyword cannot be supplied. -/
def window (names : String → Reference) (signature : Signature) : Except SignatureError Window := do
  let resolves ← (signature.resolves names).mapError .unresolvable
  match signature.params.find? Parameter.isRequiredKeyword with
  | some parameter => throw (.keywordRequired parameter.name)
  | none =>
    let positional := signature.params.filter Parameter.isPositional
    let rest := signature.params.find? (·.role = .rest)
    let params := positional.map (Parameter.type names resolves)
    return {
      params
      arity := ⟨positional.countP (!·.optional), if rest.isSome then none else some params.length⟩
      rest := (rest.map (Parameter.type names resolves)).getD .unannotated }

end Signature

end HostLisp
