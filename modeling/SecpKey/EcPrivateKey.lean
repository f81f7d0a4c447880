/-
  SecpKey.EcPrivateKey

  The DER form of a private key (RFC 5915): a version, the scalar, optional curve
  parameters in field 0 and an optional public key in field 1.  `encode` writes the
  named-curve form with the public key; `decode` also reads explicit parameters and
  keys without either field.
-/
import SecpKey.EcPrivateKey.Parameters

namespace SecpKey.EcPrivateKey

def keyVersion : Nat := 1

def parametersField : Nat := 0

def publicKeyField : Nat := 1

/-! ## Writing -/

/-- The named-curve form of a scalar and the SEC1 form of its public point. -/
def encode (curve : Curve) (secret publicKey : Bytes) : Except Failure Bytes :=
  if secret.length ≠ scalarSize then .error (.encoding (.secretSize secret.length))
  else if publicKey = [] then .error (.encoding .publicMissing)
  else
    match Der.encodeObject curve.oid with
    | .error fault => .error (.encoding (.arcs fault))
    | .ok oid =>
      .ok (Der.encodeSequence
        [Der.encodeInteger keyVersion, Der.encodeOctetString secret,
         Der.encodeField parametersField oid,
         Der.encodeField publicKeyField (Der.encodeBitString publicKey)])

/-! ## Reading -/

/-- What a private key file holds. -/
structure Decoded where
  /-- The scalar, as exactly `scalarSize` bytes. -/
  secret : Bytes
  /-- The payload of the public key field, not looked at. -/
  publicKey : Option Bytes
  deriving DecidableEq, Repr

/-- Accept the curve parameters, if there are any. -/
def acceptField {P : Type} (backend : Backend P) (curve : Curve) :
    Option Bytes → Except Failure Unit
  | none => .ok ()
  | some parameters => accept backend curve parameters

/-- The public key inside its field, if there is one. -/
def readPublicKey : Option Bytes → Except Failure (Option Bytes)
  | none => .ok none
  | some contents => do
    let (payload, extra) ← lift (Der.readBitString contents)
    ensure (extra == []) .publicTrailing
    .ok (some payload)

/-- The scalar's bytes and the public key, as they stand in the file. -/
def readParts {P : Type} (backend : Backend P) (curve : Curve) (data : Bytes) :
    Except Failure (Bytes × Option Bytes) := do
  let (body, rest) ← lift (Der.readSequence data)
  ensure (rest == []) .trailing
  let (version, body) ← lift (Der.readInteger body)
  ensure (version == keyVersion) (quoting [version] (.version version))
  let (secret, body) ← lift (Der.readOctetString body)
  let (parameters, body) ← lift (Der.readField? parametersField body)
  acceptField backend curve parameters
  let (wrapped, body) ← lift (Der.readField? publicKeyField body)
  let publicKey ← readPublicKey wrapped
  ensure (body == []) .unexpectedField
  .ok (secret, publicKey)

/-- Read a private key of `curve`.  The scalar is judged only after the whole file has
been read; whether the public key belongs to it is left to the caller. -/
def decode {P : Type} (backend : Backend P) (curve : Curve) (data : Bytes) :
    Except Failure Decoded := do
  let (secret, publicKey) ← readParts backend curve data
  ensure (0 < secret.length && secret.length ≤ scalarSize) (.secretSize secret.length)
  ensure (0 < Bytes.toNat secret && (Bytes.toNat secret : Int) < curve.n) .secretOutOfRange
  .ok { secret := Bytes.padLeft scalarSize secret, publicKey := publicKey }

end SecpKey.EcPrivateKey
