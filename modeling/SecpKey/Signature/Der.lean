/-
  SecpKey.Signature.Der

  The DER form of a signature: a sequence of two non-negative integers and nothing else.
-/
import SecpKey.Der.Reader
import SecpKey.Failure

namespace SecpKey.Signature

/-- The numbers of a DER signature; every deviation from DER is refused. -/
def parse (signature : Bytes) : Except Failure (Nat × Nat) := do
  let lift {α : Type} (x : Except Der.Fault α) : Except Failure α :=
    x.mapError (fun fault => .decode (.signature fault))
  let (body, rest) ← lift (Der.readSequence signature)
  if rest ≠ [] then .error (.decode .signatureTrailing)
  else
    let (r, body) ← lift (Der.readInteger body)
    let (s, body) ← lift (Der.readInteger body)
    if body ≠ [] then .error (.decode .signatureExtra) else .ok (r, s)

/-- The DER form of two numbers. -/
def encode (r s : Nat) : Bytes := Der.encodeSequence [Der.encodeInteger r, Der.encodeInteger s]

/-- The DER form of two integers; there is none for a negative one. -/
def encodeInts (r s : Int) : Except Failure Bytes :=
  if r < 0 ∨ s < 0 then .error (.fault .negativeInteger) else .ok (encode r.toNat s.toNat)

end SecpKey.Signature
