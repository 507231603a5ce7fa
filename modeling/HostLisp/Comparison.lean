/-!
The comparisons of two values that host functions make.
-/

namespace HostLisp

inductive Comparison where
  | equal
  | less
  | greater
deriving DecidableEq

namespace Comparison

def flip : Comparison → Comparison
  | equal => equal
  | less => greater
  | greater => less

def sign : Comparison → String
  | equal => "=="
  | less => "<"
  | greater => ">"

def name : Comparison → String
  | equal => "equal"
  | less => "less"
  | greater => "greater"

/-- Whether a comparison holds of two sides, given whether the first is the lesser or the greater
one. -/
def holdsOf (isLess isGreater : Bool) : Comparison → Bool
  | equal => !isLess && !isGreater
  | less => isLess
  | greater => isGreater

end Comparison

end HostLisp
