/-
  SecpKey.Proofs.EcPrivateKey.Complete

  Every file that is built around a scalar in range is read, and as that scalar.  The curve
  may be any whose object identifier has an encoding (`acceptField_named`), either field may
  be there or not, and the public key may be any bytes (`decode_contents`).  What `encode`
  writes is one of these files, so reading it gives back what was written.
-/
import SecpKey.Proofs.EcPrivateKey.RoundTrip
import SecpKey.Proofs.EcPrivateKey.Strict

namespace SecpKey.EcPrivateKey

variable {P : Type} {backend : Backend P} {curve : Curve}

/-! ## Parameters -/

/-- The object identifier of the curve is accepted, whichever the curve is. -/
theorem acceptField_named {oid : Bytes} (hoid : Der.encodeObject curve.oid = .ok oid)
    (hlen : oid.length < Der.lengthLimit) : acceptField backend curve (some oid) = .ok () := by
  obtain ⟨numbers, hread, hnumbers⟩ := Der.readObject_of_encodeObject hoid hlen []
  rw [List.append_nil] at hread
  have hhead : oid.head? = some Der.Tag.object.byte := by
    cases hcontents : Der.objectContents curve.oid with
    | error e =>
        rw [Der.encodeObject, hcontents] at hoid
        cases hoid
    | ok contents =>
        rw [Der.encodeObject, hcontents] at hoid
        rw [← Except.ok.inj hoid]
        rfl
  rw [acceptField, accept, if_pos hhead]
  simp only [acceptNamed, bind_eq_ok, Prod.exists, lift_eq_ok, ensure_eq_ok, beq_iff_eq]
  exact ⟨numbers, [], hread, (), rfl, hnumbers⟩

/-! ## Files -/

/-- A file around a scalar in range is read as the scalar in 32 bytes. -/
theorem decode_contents {secret : Bytes} {parameters publicKey : Option Bytes}
    (hsize : 1 ≤ secret.length ∧ secret.length ≤ 32)
    (hrange : 1 ≤ Bytes.toNat secret ∧ (Bytes.toNat secret : Int) < curve.n)
    (hacc : acceptField backend curve parameters = .ok ())
    (hlen : (contents secret parameters publicKey).length < Der.lengthLimit) :
    decode backend curve (Der.encodeElement .sequence (contents secret parameters publicKey))
      = .ok ⟨List.replicate (32 - secret.length) 0 ++ secret, publicKey⟩ :=
  decode_eq_ok_iff.mpr ⟨secret, readParts_contents hacc hlen, hsize, hrange, rfl⟩

/-- What is read of the files for a curve, whose object identifier is written as `oid`. -/
structure ReadsBack (backend : Backend P) (curve : Curve) (oid : Bytes) : Prop where
  /-- The scalar may be shorter than 32 bytes, either field may be there or not, and the public
  key may be any bytes, none included. -/
  built : ∀ (secret : Bytes) (parameters publicKey : Option Bytes),
    1 ≤ secret.length ∧ secret.length ≤ 32 →
    1 ≤ Bytes.toNat secret ∧ (Bytes.toNat secret : Int) < curve.n →
    parameters = none ∨ parameters = some oid →
    (contents secret parameters publicKey).length < Der.lengthLimit →
      decode backend curve (Der.encodeSequence
          [Der.encodeInteger keyVersion, Der.encodeOctetString secret,
           Der.optionalField parametersField parameters,
           Der.optionalField publicKeyField (publicKey.map Der.encodeBitString)])
        = .ok ⟨List.replicate (32 - secret.length) 0 ++ secret, publicKey⟩
  /-- What is written is read as what it was written for. -/
  written : ∀ secret publicKey : Bytes, secret.length = 32 →
    1 ≤ Bytes.toNat secret ∧ (Bytes.toNat secret : Int) < curve.n → publicKey ≠ [] →
    (contents secret (some oid) (some publicKey)).length < Der.lengthLimit →
      ∃ der, encode curve secret publicKey = .ok der
        ∧ decode backend curve der = .ok ⟨secret, some publicKey⟩

/-- Every curve whose first two arcs can share one number has an object identifier, and its
files are read back. -/
theorem decode_inverts_encode (backend : Backend P) {first second : Nat} {arcs : List Nat}
    (hoid : curve.oid = (first :: second :: arcs).map Int.ofNat)
    (hfirst : first < 2 ∧ second ≤ 39 ∨ first = 2) :
    ∃ oid, Der.encodeObject curve.oid = .ok oid ∧ ReadsBack backend curve oid := by
  have hfit : Der.firstArcsFit first second = true := by
    simp only [Der.firstArcsFit, Bool.or_eq_true, Bool.and_eq_true, decide_eq_true_eq, beq_iff_eq]
    omega
  obtain ⟨oid, henc⟩ : ∃ oid, Der.encodeObject curve.oid = .ok oid :=
    ⟨_, by rw [hoid, Der.encodeObject, Der.objectContents_natArcs hfit]; rfl⟩
  refine ⟨oid, henc, ?_, ?_⟩
  · intro secret parameters publicKey hsize hrange hparameters hlen
    rw [encodeSequence_parts]
    refine decode_contents hsize hrange ?_ hlen
    rcases hparameters with rfl | rfl
    · rfl
    · exact acceptField_named henc ((lengths_of_layout hlen).2.1 oid rfl)
  · intro secret publicKey hsize hrange hpublic hlen
    refine ⟨_, encode_eq_contents hsize hpublic henc, ?_⟩
    have hacc : acceptField backend curve (some oid) = .ok () :=
      acceptField_named henc ((lengths_of_layout hlen).2.1 oid rfl)
    rw [decode_contents ⟨by omega, by omega⟩ hrange hacc hlen, hsize]
    rfl

/-- secp256k1 under a name with long arcs. -/
def longNamed : Curve := { Curve.secp256k1 with oid := [2, 999, 0x123456789ABCDEF0123456789] }

theorem decode_inverts_encode_longNamed :
    longNamed.oid = (2 :: 999 :: [0x123456789ABCDEF0123456789]).map Int.ofNat
      ∧ ∃ oid, Der.encodeObject longNamed.oid = .ok oid
        ∧ ReadsBack Backend.secp256k1 longNamed oid :=
  have hoid : longNamed.oid = (2 :: 999 :: [0x123456789ABCDEF0123456789]).map Int.ofNat := rfl
  ⟨hoid, decode_inverts_encode Backend.secp256k1 hoid (.inr rfl)⟩

end SecpKey.EcPrivateKey
