/-
  SecpKey.Curve.Point

  Points of secp256k1 and their group operations.  `Point` holds affine coordinates;
  sums are computed on `Jacobian` triples, where `z = 0` is the point at infinity and
  `(x, y, z)` stands for `(x / z², y / z³)`.
-/
import SecpKey.Curve
import SecpKey.Curve.Modular

namespace SecpKey

/-- An affine point. -/
structure Point where
  x : Nat
  y : Nat
  deriving DecidableEq, Repr

namespace Point

def generator : Point := ⟨generatorX, generatorY⟩

/-- The right-hand side of the curve equation. -/
def curveRhs (x : Nat) : Nat := (x * x * x + 7) % fieldPrime

/-- Whether both coordinates are field elements and satisfy the curve equation. -/
def onCurve (P : Point) : Bool :=
  P.x < fieldPrime && P.y < fieldPrime && P.y * P.y % fieldPrime == curveRhs P.x

/-- The point above `x` whose second coordinate has the given parity, if there is one.
The field prime is 3 modulo 4, so the only candidate for a root is a power. -/
def lift? (x : Nat) (odd : Bool) : Option Point :=
  let y := Modular.pow fieldPrime (curveRhs x) ((fieldPrime + 1) / 4)
  if x < fieldPrime && y * y % fieldPrime == curveRhs x then
    some ⟨x, if (y % 2 == 1) == odd then y else Modular.sub fieldPrime 0 y⟩
  else none

end Point

/-! ## Sums -/

/-- Projective coordinates with weights 2, 3 and 1. -/
structure Jacobian where
  x : Nat
  y : Nat
  z : Nat
  deriving DecidableEq, Repr

namespace Jacobian

def infinity : Jacobian := ⟨1, 1, 0⟩

def ofPoint (P : Point) : Jacobian := ⟨P.x, P.y, 1⟩

/-- The affine point, unless at infinity. -/
def toPoint? (P : Jacobian) : Option Point :=
  if P.z = 0 then none
  else
    let w := Modular.inverse fieldPrime P.z
    let w2 := w * w % fieldPrime
    some ⟨P.x * w2 % fieldPrime, P.y * (w2 * w % fieldPrime) % fieldPrime⟩

def double (P : Jacobian) : Jacobian :=
  -- The tangent is vertical where the second coordinate is zero.
  if P.z = 0 ∨ P.y = 0 then infinity
  else
    let yy := P.y * P.y % fieldPrime
    let s := 4 * P.x * yy % fieldPrime
    let m := 3 * P.x * P.x % fieldPrime
    let x := Modular.sub fieldPrime (m * m) (2 * s % fieldPrime)
    let y := Modular.sub fieldPrime (m * Modular.sub fieldPrime s x) (8 * yy * yy % fieldPrime)
    ⟨x, y, 2 * P.y * P.z % fieldPrime⟩

def add (P Q : Jacobian) : Jacobian :=
  if P.z = 0 then Q
  else if Q.z = 0 then P
  else
    let zz1 := P.z * P.z % fieldPrime
    let zz2 := Q.z * Q.z % fieldPrime
    let u1 := P.x * zz2 % fieldPrime
    let u2 := Q.x * zz1 % fieldPrime
    let s1 := P.y * zz2 * Q.z % fieldPrime
    let s2 := Q.y * zz1 * P.z % fieldPrime
    -- One first coordinate: the same point, or its opposite.
    if u1 = u2 then if s1 = s2 then double P else infinity
    else
      let h := Modular.sub fieldPrime u2 u1
      let r := Modular.sub fieldPrime s2 s1
      let hh := h * h % fieldPrime
      let hhh := h * hh % fieldPrime
      let v := u1 * hh % fieldPrime
      let x := Modular.sub fieldPrime (r * r) ((hhh + 2 * v) % fieldPrime)
      let y := Modular.sub fieldPrime (r * Modular.sub fieldPrime v x) (s1 * hhh % fieldPrime)
      ⟨x, y, P.z * Q.z * h % fieldPrime⟩

/-- The multiple of a point, by doubling and adding. -/
def smul (k : Nat) (P : Jacobian) : Jacobian :=
  if h : k = 0 then infinity
  else
    let twice := double (smul (k / 2) P)
    if k % 2 = 0 then twice else add twice P
termination_by k
decreasing_by omega

end Jacobian

namespace Point

/-- The multiple of a point; nothing when it is the point at infinity. -/
def smul? (k : Nat) (P : Point) : Option Point := (Jacobian.smul k (.ofPoint P)).toPoint?

/-- `a * P + b * Q`, unless it is the point at infinity. -/
def combine? (a : Nat) (P : Point) (b : Nat) (Q : Point) : Option Point :=
  (Jacobian.add (.smul a (.ofPoint P)) (.smul b (.ofPoint Q))).toPoint?

end Point

end SecpKey
