/-
  SecpKey.Signature

  Verifying a DER signature of a digest.  Both `(r, s)` and `(r, n - s)` satisfy the
  ECDSA equation together; the backend takes the lower form only, so the upper one is
  folded before it is asked.
-/
import SecpKey.Backend
import SecpKey.Signature.Der
import SecpKey.VerifyResult

namespace SecpKey.Signature

/-- The lower of `s` and `n - s`; a lower `s` stays as it is. -/
def normalizeS (s : Int) : Int :=
  if (groupOrder : Int) / 2 < s then groupOrder - s else s

/-- Whether `r` and `s` can belong to a signature. -/
def inRange (r s : Nat) : Bool :=
  0 < r && r < groupOrder && 0 < s && s < groupOrder

/-- Whether the outcome for a signature depends on the point and the digest. -/
def needsPoint (signature : Bytes) : Bool :=
  match parse signature with
  | .error _ => false
  | .ok (r, s) => inRange r s

/-- The outcome of the backend's check. -/
def resultOf : Option Bool → VerifyResult
  | some true => .valid
  | some false => .invalid
  | none => .indeterminate

/-- Verify a signature under a point.  The signature is looked at first: anything but a
DER signature is indeterminate and numbers out of range are invalid, whatever the rest.
Only then the point is needed. -/
def verifyUnder {P : Type} (backend : Backend P) (point : Option P) (digest signature : Bytes) :
    Except Failure VerifyResult :=
  match parse signature with
  | .error _ => .ok .indeterminate
  | .ok (r, s) =>
    if inRange r s then do
      let Q ← (match point with
        | some Q => .ok Q
        | none => .error (.fault .jobWithoutPoint) : Except Failure P)
      -- The backend is given the numbers written anew, not the caller's bytes.
      let folded ← encodeInts r (normalizeS s)
      .ok (resultOf (backend.verify? Q folded digest))
    else .ok .invalid

/-- Verify a signature under a given point. -/
def verifyDigest {P : Type} (backend : Backend P) (point : P) (digest signature : Bytes) :
    Except Failure VerifyResult :=
  verifyUnder backend (some point) digest signature

end SecpKey.Signature
