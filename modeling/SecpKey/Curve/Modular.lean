/-
  SecpKey.Curve.Modular

  Arithmetic modulo a number, on representatives below it: power by repeated squaring,
  difference, and the inverse modulo a prime.
-/

namespace SecpKey.Modular

/-- `base ^ exponent` modulo `m`, by repeated squaring. -/
def pow (m base exponent : Nat) : Nat :=
  if h : exponent = 0 then 1 % m
  else
    let half := pow m (base * base % m) (exponent / 2)
    if exponent % 2 = 0 then half else base * half % m
termination_by exponent
decreasing_by omega

/-- `x - y` modulo `m`, for `y ≤ m`. -/
def sub (m x y : Nat) : Nat := (x + (m - y)) % m

/-- The inverse of `x` modulo the prime `m`; zero for a multiple of `m`. -/
def inverse (m x : Nat) : Nat := pow m (x % m) (m - 2)

end SecpKey.Modular
