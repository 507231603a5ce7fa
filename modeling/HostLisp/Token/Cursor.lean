import HostLisp.Token.Basic

/-!
A cursor is a place in a token sequence from which tokens are seen and taken.
-/

namespace HostLisp.Token

structure Cursor where
  tokens : List Token
  position : Nat := 0

namespace Cursor

def peek (cursor : Cursor) (offset : Int := 0) : Option Token :=
  let index : Int := cursor.position + offset
  if index < 0 then none else cursor.tokens[index.toNat]?

/-- Takes the current token; at the end nothing moves. -/
def pop (cursor : Cursor) : Option Token × Cursor :=
  match cursor.peek with
  | none => (none, cursor)
  | some token => (some token, { cursor with position := cursor.position + 1 })

def isExhausted (cursor : Cursor) : Bool := cursor.tokens.length ≤ cursor.position

def size (cursor : Cursor) : Nat := cursor.tokens.length - cursor.position

def rest (cursor : Cursor) : List Token := cursor.tokens.drop cursor.position

def skip (cursor : Cursor) : Nat → Cursor
  | 0 => cursor
  | count + 1 => cursor.pop.2.skip count

end Cursor

end HostLisp.Token
