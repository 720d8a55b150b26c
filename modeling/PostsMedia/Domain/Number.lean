import Mathlib.Data.Rat.Defs

namespace PostsMedia

/-- A JavaScript number. -/
inductive Number
  | nan
  | infinity (negative : Bool)
  | finite (value : ℚ)
  deriving DecidableEq

namespace Number

def isInteger : Number → Bool
  | .finite value => value.isInt
  | _ => false

def isFinite : Number → Bool
  | .finite _ => true
  | _ => false

/-- The comparison `<` is false as soon as one side is not a number. -/
def lt : Number → Number → Bool
  | .nan, _ | _, .nan => false
  | .infinity true, .infinity true => false
  | .infinity true, _ => true
  | .infinity false, _ => false
  | .finite _, .infinity negative => !negative
  | .finite value, .finite other => value < other

/-- The greater of two numbers as `Math.max` tells. -/
def mathMax : Number → Number → Number
  | .nan, _ | _, .nan => .nan
  | x, y => if x.lt y then y else x

end Number

end PostsMedia
