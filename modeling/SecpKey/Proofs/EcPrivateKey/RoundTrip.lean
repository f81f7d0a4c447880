/-
  SecpKey.Proofs.EcPrivateKey.RoundTrip

  A private key that was written is read back.  `readParts_contents` takes every layout
  apart whose parameters are accepted; the one that `encode` writes is such a layout
  (`readParts_encode`), and it is read as a key if its scalar is in range
  (`decode_encode`).
-/
import SecpKey.Proofs.EcPrivateKey.Layout

namespace SecpKey

namespace EcPrivateKey

variable {P : Type} {backend : Backend P} {curve : Curve}

/-! ## Layouts -/

/-- The layout whose public key, if there is one, says to have what it has. -/
def contents (secret : Bytes) (parameters publicKey : Option Bytes) : Bytes :=
  layout secret parameters (publicKey.map Der.encodeBitString)

/-- The public key inside its field is read back. -/
theorem readPublicKey_map {publicKey : Option Bytes}
    (h : ∀ payload, publicKey = some payload → payload.length + 1 < Der.lengthLimit) :
    readPublicKey (publicKey.map Der.encodeBitString) = .ok publicKey := by
  rw [readPublicKey_eq_ok_iff]
  cases publicKey with
  | none => exact ⟨0, rfl, by simp⟩
  | some payload =>
      refine ⟨payload.length + 1, rfl, ?_⟩
      rintro _ ⟨⟩
      exact ⟨h payload rfl, Nat.le_refl _⟩

/-- Every layout is taken apart into what it was made of. -/
theorem readParts_contents {secret : Bytes} {parameters publicKey : Option Bytes}
    (hacc : acceptField backend curve parameters = .ok ())
    (hlen : (contents secret parameters publicKey).length < Der.lengthLimit) :
    readParts backend curve (Der.encodeElement .sequence (contents secret parameters publicKey))
      = .ok (secret, publicKey) := by
  refine readParts_eq_ok_iff.mpr ⟨parameters, _, rfl, hlen, hacc, readPublicKey_map ?_⟩
  rintro payload rfl
  have hwrapped := (lengths_of_layout hlen).2.2 _ rfl
  have hwrap := Der.length_lt_encodeElement .bitString (0 :: payload)
  rw [← Der.encodeBitString, List.length_cons] at hwrap
  exact Nat.lt_trans hwrap hwrapped

/-- A decoded scalar lies in `[1, n-1]` of its curve. -/
theorem decode_secret_range {data : Bytes} {decoded : Decoded}
    (h : decode backend curve data = .ok decoded) :
    1 ≤ Bytes.toNat decoded.secret ∧ (Bytes.toNat decoded.secret : Int) < curve.n := by
  obtain ⟨secret, -, -, hrange, hsecret⟩ := decode_eq_ok_iff.mp h
  rw [hsecret, Bytes.toNat_padLeft]
  exact hrange

/-- A decoded scalar is written in `scalarSize` bytes, however it was written in the file. -/
theorem decode_secret_eq {data : Bytes} {decoded : Decoded}
    (h : decode backend curve data = .ok decoded) :
    decoded.secret = Bytes.ofNat scalarSize (Bytes.toNat decoded.secret) := by
  obtain ⟨secret, -, ⟨-, hsize⟩, -, hsecret⟩ := decode_eq_ok_iff.mp h
  have hlen : decoded.secret.length = scalarSize := by rw [hsecret, Bytes.length_padLeft hsize]
  have hdigits := Bytes.ofNat_toNat decoded.secret
  rw [hlen] at hdigits
  exact hdigits.symm

/-- On secp256k1, a decoded scalar is a number in `[1, n-1]` in 32 bytes. -/
theorem exists_of_decode {data secret : Bytes} {publicKey : Option Bytes}
    (h : decode backend Curve.secp256k1 data = .ok ⟨secret, publicKey⟩) :
    ∃ d, (1 ≤ d ∧ d < groupOrder) ∧ Bytes.ofNat scalarSize d = secret := by
  obtain ⟨hpos, hlt⟩ := decode_secret_range h
  exact ⟨_, ⟨hpos, Int.ofNat_lt.mp hlt⟩, (decode_secret_eq h).symm⟩

/-! ## The named-curve form -/

/-- The form that is written is one of the layouts. -/
theorem encode_eq_contents {secret publicKey oid : Bytes} (hsecret : secret.length = scalarSize)
    (hpublic : publicKey ≠ []) (hoid : Der.encodeObject curve.oid = .ok oid) :
    encode curve secret publicKey
      = .ok (Der.encodeElement .sequence (contents secret (some oid) (some publicKey))) := by
  rw [encode, if_neg (not_not.mpr hsecret), if_neg hpublic, hoid]
  simp only [Der.encodeSequence, contents, layout, Der.optionalField, Option.map_some,
    List.flatten_cons, List.flatten_nil, List.append_nil]

/-- The object identifier of the curve is written, and accepted. -/
theorem oid_secp256k1 (backend : Backend P) :
    ∃ oid, Der.encodeObject Curve.secp256k1.oid = .ok oid ∧ oid.length = 7
      ∧ acceptField backend Curve.secp256k1 (some oid) = .ok () := by
  refine ⟨[0x06, 0x05, 0x2B, 0x81, 0x04, 0x00, 0x0A], ?_, rfl, ?_⟩
  · decide +kernel
  · show acceptNamed Curve.secp256k1 _ = .ok ()
    decide +kernel

/-- What is written is taken apart into the same 32 bytes, whatever the scalar, and the same
public key. -/
theorem readParts_encode (backend : Backend P) {secret publicKey : Bytes}
    (hsecret : secret.length = scalarSize) (hpublic : publicKey ≠ [])
    (hlen : publicKey.length < 256 ^ 126) :
    ∃ der, encode Curve.secp256k1 secret publicKey = .ok der
      ∧ readParts backend Curve.secp256k1 der = .ok (secret, some publicKey) := by
  obtain ⟨oid, hoid, hoidlen, hacc⟩ := oid_secp256k1 backend
  refine ⟨_, encode_eq_contents hsecret hpublic hoid, readParts_contents hacc ?_⟩
  -- The headers add a few hundred bytes to the public key.
  have hlimit : 256 ^ 126 + 1000 < Der.lengthLimit := by decide
  have hscalar : scalarSize = 32 := rfl
  have hversion : (Der.encodeInteger keyVersion).length = 3 := by decide
  have hoctets := Der.encodeElement_length_le .octetString secret (by omega)
  have hfield0 := Der.encodeElement_length_le (.field parametersField) oid (by omega)
  have hbits := Der.encodeElement_length_le .bitString (0 :: publicKey)
    (by rw [List.length_cons]; omega)
  have hfield1 := Der.encodeElement_length_le (.field publicKeyField)
    (Der.encodeBitString publicKey) (by
      rw [List.length_cons] at hbits
      rw [Der.encodeBitString]
      omega)
  rw [List.length_cons] at hbits
  rw [Der.encodeBitString] at hfield1
  simp only [contents, layout, Der.encodeOctetString, Der.optionalField, Der.encodeField,
    Option.map_some, Der.encodeBitString, List.length_append]
  omega

/-- What is written for a scalar in range is read back. -/
theorem decode_encode (backend : Backend P) {secret publicKey : Bytes}
    (hsecret : secret.length = scalarSize)
    (hrange : 1 ≤ Bytes.toNat secret ∧ Bytes.toNat secret < groupOrder)
    (hpublic : publicKey ≠ []) (hlen : publicKey.length < 256 ^ 126) :
    ∃ der, encode Curve.secp256k1 secret publicKey = .ok der
      ∧ decode backend Curve.secp256k1 der = .ok ⟨secret, some publicKey⟩ := by
  obtain ⟨der, henc, hparts⟩ := readParts_encode backend hsecret hpublic hlen
  refine ⟨der, henc, ?_⟩
  rw [decode_of_readParts hparts hsecret, if_pos ⟨hrange.1, Int.ofNat_lt.mpr hrange.2⟩]

end EcPrivateKey

end SecpKey
