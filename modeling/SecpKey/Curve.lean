/-
  SecpKey.Curve

  Domain parameters of a short Weierstrass curve, the test for its equation, and the
  SEC1 forms of its generator.  `Curve.secp256k1` is the curve of this library; other
  parameters serve to read and write keys of curves that only differ in numbers.
-/
import SecpKey.Failure

namespace SecpKey

/-! ## Constants -/

def curveName : String := "secp256k1"

/-- The object identifier of the curve. -/
def curveOid : List Int := [1, 3, 132, 0, 10]

/-- The object identifier of prime fields. -/
def primeFieldOid : List Nat := [1, 2, 840, 10045, 1, 1]

/-- The size of the field. -/
def fieldPrime : Nat := 0xFFFFFFFFFFFFFFFFFFFFFFFFFFFFFFFFFFFFFFFFFFFFFFFFFFFFFFFEFFFFFC2F

/-- The order of the generator. -/
def groupOrder : Nat := 0xFFFFFFFFFFFFFFFFFFFFFFFFFFFFFFFEBAAEDCE6AF48A03BBFD25E8CD0364141

def generatorX : Nat := 0x79BE667EF9DCBBAC55A06295CE870B07029BFCDB2DCE28D959F2815B16F81798

def generatorY : Nat := 0x483ADA7726A3C4655DA4FBFC0E1108A8FD17B448A68554199C47D08FFB10D4B8

/-- The size of a private scalar in bytes. -/
def scalarSize : Nat := 32

/-- Whether a private scalar lies in `[1, n-1]`. -/
def isValidScalar (value : Int) : Bool := 0 < value && value < groupOrder

/-! ## Curves -/

structure Curve where
  name : String
  oid : List Int
  p : Int
  a : Int
  b : Int
  n : Int
  h : Int
  gx : Int
  gy : Int
  deriving DecidableEq, Repr

namespace Curve

/-- The curve of this library (SEC 2, section 2.4.1). -/
def secp256k1 : Curve :=
  { name := curveName, oid := curveOid, p := fieldPrime, a := 0, b := 7, n := groupOrder, h := 1,
    gx := generatorX, gy := generatorY }

def generator (c : Curve) : Int × Int := (c.gx, c.gy)

/-- The width of a field element in bytes. -/
def fieldSize (c : Curve) : Nat := byteLength c.p

/-- The SEC1 form of the generator. -/
def generatorBytes (c : Curve) (compressed : Bool) : Except WidthFault Bytes :=
  if compressed then do
    let x ← encodeInt c.gx c.fieldSize
    .ok ((if c.gy % 2 = 0 then 0x02 else 0x03) :: x)
  else do
    let x ← encodeInt c.gx c.fieldSize
    let y ← encodeInt c.gy c.fieldSize
    .ok (0x04 :: (x ++ y))

/-- Whether `(x, y)` satisfies the curve equation modulo `p`; a field of size zero has no
residues to compare. -/
def contains (c : Curve) (x y : Int) : Except Failure Bool :=
  if c.p = 0 then .error (.fault .zeroModulus)
  else .ok ((y * y - (x * x * x + c.a * x + c.b)) % c.p == 0)

end Curve

end SecpKey
