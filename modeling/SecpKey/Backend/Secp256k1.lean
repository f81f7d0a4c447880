/-
  SecpKey.Backend.Secp256k1

  The curve arithmetic of this library as a backend.
-/
import SecpKey.Backend
import SecpKey.Curve.Ecdsa
import SecpKey.Curve.Sec1
import SecpKey.Signature.Der

namespace SecpKey.Backend

/-- What a scalar outside `[1, n-1]` is refused with. -/
def scalarRefusal : String := "Secret scalar must be greater than 0 and less than the group order."

/-- What is reported when no nonce leads to a signature. -/
def nonceRefusal : String := "The nonce generation function failed, or the private key was invalid."

/-- A signature in its DER form, if there is one. -/
def signatureOrRefusal : Option (Nat × Nat) → Except String Bytes
  | some (r, s) => .ok (Signature.encode r s)
  | none => .error nonceRefusal

/-- The backend on affine points. -/
def secp256k1 : Backend Point where
  admits d := isValidScalar d
  ofScalar d :=
    if isValidScalar d then
      match Point.smul? d .generator with
      | some P => .ok P
      | none => .error scalarRefusal
    else .error scalarRefusal
  parse? := Point.parse?
  format := Point.format
  coordinates P := (P.x, P.y)
  sign d digest := signatureOrRefusal (Ecdsa.sign? d (Ecdsa.messageScalar digest))
  verify? Q signature digest :=
    match Signature.parse signature with
    | .error _ => none
    | .ok (r, s) =>
      if digest.length ≠ digestSize then none
      else some (0 < r && r < groupOrder && 0 < s && s ≤ groupOrder / 2
        && Ecdsa.verify Q (Ecdsa.messageScalar digest) r s)

end SecpKey.Backend
