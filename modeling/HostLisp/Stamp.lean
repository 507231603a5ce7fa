/-!
Stamps tell apart objects that come to be at different moments.
-/

namespace HostLisp

/-- The moment at which an object came to be: the number of scopes at that time, and a serial number
since the last of them. Objects that are told apart by identity carry one. -/
structure Stamp where
  scopes : Nat := 0
  serial : Nat := 0
deriving DecidableEq

end HostLisp
