/-
  SecpKey.Backend

  What key handling needs from the library that computes on the curve.  Points are a
  type of its choice, seen only through these operations.
-/
import SecpKey.Curve

namespace SecpKey

/-- Operations on the points of secp256k1.  A text is what a refusal is reported with. -/
structure Backend (P : Type) where
  /-- Whether a number is accepted as a private scalar. -/
  admits : Nat → Bool
  /-- The multiple of the generator. -/
  ofScalar : Nat → Except String P
  /-- The point that bytes are a SEC1 form of. -/
  parse? : Bytes → Option P
  /-- The compressed or uncompressed SEC1 form. -/
  format : P → Bool → Bytes
  /-- The affine coordinates. -/
  coordinates : P → Nat × Nat
  /-- The DER signature of a digest under a scalar. -/
  sign : Nat → Bytes → Except String Bytes
  /-- Whether a low-S DER signature is valid for a digest under a point; nothing when the
  digest or the signature is refused. -/
  verify? : P → Bytes → Bytes → Option Bool

end SecpKey
