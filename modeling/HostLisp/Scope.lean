import HostLisp.Table
import HostLisp.Value.Flaw
import HostLisp.Value.Picture
import HostLisp.Value.Printer

/-!
A scope binds names to values, with documentation on some of them, and knows the scopes around it.
-/

namespace HostLisp

/-- The bindings of one scope and the scopes that enclose it, nearest first. -/
structure Scope where
  bindings : Table Value := .empty
  docs : Table String := .empty
  enclosing : List ScopeId := []

namespace Scope

instance : Inhabited Scope := ⟨{}⟩

/-- Binds a name. A binding without documentation keeps the one that was there. -/
def bind (scope : Scope) (name : String) (value : Value) (doc : Option String := none) : Scope :=
  { scope with
    bindings := scope.bindings.insert name value
    docs := match doc with
      | none => scope.docs
      | some doc => scope.docs.insert name doc }

def pictured (look : Bool → ScopeId → Value) (scope : Scope) : Scope :=
  { scope with
    bindings := ⟨scope.bindings.entries.map fun (name, value) => (name, value.pictured look true)⟩ }

def frame (scope : Scope) : String :=
  "\x7b" ++
    ", ".intercalate (scope.bindings.entries.map fun (name, value) => name ++ ": " ++ value.describe) ++
    "\x7d"

def flaw? (room : Nat) (scope : Scope) : Option Flaw :=
  Value.flawAmong? room (scope.bindings.entries.map (·.2))

def unseen (scope : Scope) : Nat := Tree.total (Value.unseens (scope.bindings.entries.map (·.2)))

end Scope

end HostLisp
