import OmocNode.Decimal
import OmocNode.Python

/-! What the node does with floats: it subtracts times, divides prices and compares. -/

namespace OmocNode

namespace PyFloat

/-- The double nearest to an exact value. -/
def ofRat (value : ℚ) : PyFloat :=
  let nearest := Decimal.rounded 2 53 value
  if |nearest| < 2 ^ 1024 then finite nearest else if 0 < nearest then infinity else negInfinity

def sub : PyFloat → PyFloat → PyFloat
  | nan, _ | _, nan | infinity, infinity | negInfinity, negInfinity => nan
  | finite x, finite y => ofRat (x - y)
  | infinity, _ | _, negInfinity => infinity
  | negInfinity, _ | _, infinity => negInfinity

/-- What a value is rounded to before its size is looked at. Below `2 ^ -1022`
doubles are no closer together. -/
def nearest (value : ℚ) : ℚ := Decimal.roundTo (max (Decimal.quantum 2 53 value) (2 ^ (-1074 : ℤ))) value

/-- `x / y` for integers, which raises where the quotient is not one of the doubles' size. -/
def divide (x y : Int) : Except PyError PyFloat :=
  if y = 0 then .error .zeroDivisionError
  else if |nearest (x / y)| < 2 ^ 1024 then .ok (finite (nearest (x / y)))
  else .error .overflowError

/-- `x * y` for a positive integer `y`. -/
def times (x : PyFloat) (y : Nat) : PyFloat :=
  match x with
  | finite value => ofRat (value * y)
  | other => other

def abs : PyFloat → PyFloat
  | finite value => finite |value|
  | infinity | negInfinity => infinity
  | nan => nan

/-- `x < y`, false where one of them is NaN. -/
def lt : PyFloat → PyFloat → Bool
  | nan, _ | _, nan | infinity, _ | _, negInfinity => false
  | finite x, finite y => x < y
  | negInfinity, _ | _, infinity => true

/-- `x == y`; NaN differs from itself. -/
def eq : PyFloat → PyFloat → Bool
  | nan, _ => false
  | x, y => x = y

/-- `x <= y`, false where one of them is NaN. -/
def le : PyFloat → PyFloat → Bool
  | nan, _ | _, nan => false
  | negInfinity, _ | _, infinity => true
  | infinity, _ | _, negInfinity => false
  | finite x, finite y => x ≤ y

/-- `x > y` for an integer `y`. -/
def gtInt (x : PyFloat) (y : Int) : Bool :=
  match x with
  | finite value => y < value
  | infinity => true
  | negInfinity | nan => false

end PyFloat

end OmocNode
