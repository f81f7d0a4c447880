/-
  SecpKey.Proofs.Key.Signing

  What signing, exporting and importing rest on.  `PublicPoint` and `Signs` say what the
  backend does for one scalar and one digest; the operations of a key give what these
  promise.  The curve arithmetic of this library keeps both promises, for every scalar in
  range and whenever its nonce generator comes up with a nonce.
-/
import SecpKey.Proofs.Curve.Sec1
import SecpKey.Proofs.Key.Containers
import SecpKey.Proofs.Signature.Equation

namespace SecpKey

variable {P : Type} {backend : Backend P} {d : Nat} {Q : P} {digest : Bytes}

/-- `Q` is the multiple of the generator by `d`, and its SEC1 forms are framed as such and
read as `Q`. -/
structure PublicPoint (backend : Backend P) (d : Nat) (Q : P) : Prop where
  ofScalar : backend.ofScalar d = .ok Q
  length_format : ∀ compressed, (backend.format Q compressed).length = formSize compressed
  isFramed_format : ∀ compressed, isFramed (backend.format Q compressed) = true
  parse?_format : ∀ compressed, backend.parse? (backend.format Q compressed) = some Q

/-- The scalar is accepted, and signing the digest with it gives a low-S signature that the
backend itself accepts under `Q`. -/
structure Signs (backend : Backend P) (d : Nat) (Q : P) (digest : Bytes) : Prop where
  admits : backend.admits d = true
  signature : ∃ r s, Signature.InRange r s ∧ s ≤ groupOrder / 2
    ∧ backend.sign d digest = .ok (Signature.encode r s)
    ∧ backend.verify? Q (Signature.encode r s) digest = some true

/-! ## The curve arithmetic of this library -/

/-- Every scalar in range has a public point, on the curve. -/
theorem exists_publicPoint_secp256k1 (hd : 1 ≤ d ∧ d < groupOrder) :
    ∃ Q : Point, PublicPoint Backend.secp256k1 d Q ∧ Q.onCurve = true
      ∧ Q.element = d • Point.generator.element := by
  have hrep := (Represents.ofPoint Point.onCurve_generator).smul d
  -- The generator has order `n`, so no multiple below it is the point at infinity.
  have hne : Point.smul? d .generator ≠ none := by
    rw [Point.smul?, Ne, hrep.toPoint?_eq_none_iff, ← addOrderOf_dvd_iff_nsmul_eq_zero,
      addOrderOf_generator]
    exact Nat.not_dvd_of_pos_of_lt hd.1 hd.2
  obtain ⟨Q, hQ⟩ := Option.ne_none_iff_exists'.mp hne
  obtain ⟨hon, helem⟩ := Point.element_of_smul? Point.onCurve_generator hQ
  refine ⟨Q, ⟨?_, Q.length_format, Q.isFramed_format, Point.parse?_format hon⟩, hon, helem⟩
  simp only [Backend.secp256k1, isValidScalar_natCast.mpr hd, if_true, hQ]

namespace Ecdsa

/-- A signature comes from one of the nonces. -/
theorem exists_nonce {d z attempts : Nat} {state : NonceState} {signature : Nat × Nat}
    (h : signFrom? d z attempts state = some signature) :
    ∃ k, signWith? d z k = some signature := by
  -- On the attempts that are left; a retry goes on from another state.
  induction attempts generalizing state with
  | zero => exact nomatch h
  | succ attempts ih =>
      rw [signFrom?] at h
      split at h
      · next found hfound => exact ⟨_, hfound.trans h⟩
      · exact ih h

theorem exists_nonce_of_sign? {d z : Nat} {signature : Nat × Nat}
    (h : sign? d z = some signature) : ∃ k, signWith? d z k = some signature := by
  rw [sign?] at h
  exact exists_nonce h

end Ecdsa

theorem sign_secp256k1 {r s : Nat}
    (h : Ecdsa.sign? d (Ecdsa.messageScalar digest) = some (r, s)) :
    Backend.secp256k1.sign d digest = .ok (Signature.encode r s) := by
  have hsign : Backend.secp256k1.sign d digest
      = Backend.signatureOrRefusal (Ecdsa.sign? d (Ecdsa.messageScalar digest)) := rfl
  rw [hsign, h]
  rfl

/-- The curve arithmetic accepts what it signed. -/
theorem signs_secp256k1 {Q : Point} {r s : Nat} (hd : 1 ≤ d ∧ d < groupOrder)
    (hon : Q.onCurve = true) (hQ : Q.element = d • Point.generator.element)
    (hlen : digest.length = digestSize)
    (hsign : Ecdsa.sign? d (Ecdsa.messageScalar digest) = some (r, s)) :
    Signs Backend.secp256k1 d Q digest where
  admits := isValidScalar_natCast.mpr hd
  signature := by
    obtain ⟨k, hk⟩ := Ecdsa.exists_nonce_of_sign? hsign
    obtain ⟨⟨hr, hs, hlow⟩, hsat⟩ := Ecdsa.satisfies_of_signWith? hk
    -- The equation holds for the numbers, and verifying decides the equation.
    have hrange : Signature.InRange r s := ⟨hr, hs, by omega⟩
    refine ⟨r, s, hrange, hlow, sign_secp256k1 hsign, ?_⟩
    rw [Signature.verify?_secp256k1 Q hrange hlow hlen, Option.some.injEq, Ecdsa.verify_iff hon,
      hQ]
    exact hsat

/-! ## Operations of a key -/

namespace Key

variable {k : Key P} {v : Vault} {h : Nat} {buffer der : Bytes}

/-- Signing hands the scalar to the backend and gives what it answers. -/
theorem sign_of_live {signature : Bytes} (hs : k.secret = some h) (hv : v.get h = .live buffer)
    (hd : Bytes.toNat buffer < groupOrder) (hlen : digest.length = digestSize)
    (hadmits : backend.admits (Bytes.toNat buffer) = true)
    (hsign : backend.sign (Bytes.toNat buffer) digest = .ok signature) :
    (k.sign backend (.bytes digest) v).1 = .ok signature := by
  have hdigest : ensureDigest (.bytes digest) = .ok digest := if_pos hlen
  have hcopy : (v.get h).copy = .ok (.live buffer) := by rw [hv]; rfl
  rw [sign, hs]
  dsimp only
  rw [hdigest]
  dsimp only
  rw [hcopy]
  dsimp only
  rw [Vault.put_eq]
  dsimp only
  rw [Vault.get_put_length, SecretScalar.toBytes_scalarSize hd]
  dsimp only
  rw [SecretScalar.toNat_ofNat_scalarSize hd, if_pos hadmits, hsign]

/-- Framed bytes that can be read set their point, and the form they came in. -/
theorem setPublic_of_parse {bytes : Bytes} (hframed : isFramed bytes = true)
    (hQ : backend.parse? bytes = some Q) :
    k.setPublic backend (.bytes bytes)
      = .ok { k with point := some Q, compressed := bytes.length == compressedSize } := by
  rw [setPublic, ensureFramed_of_isFramed hframed]
  dsimp only
  rw [hQ]

/-- Nothing else sets a point. -/
theorem setPublic_eq_ok_iff {l : Key P} {a : Argument} :
    k.setPublic backend a = .ok l
      ↔ ∃ bytes Q, a = .bytes bytes ∧ isFramed bytes = true ∧ backend.parse? bytes = some Q
          ∧ l = { k with point := some Q, compressed := bytes.length == compressedSize } := by
  constructor
  · intro h
    rw [setPublic] at h
    split at h
    · cases h
    next bytes hbytes =>
    split at h
    · cases h
    next Q hQ =>
    obtain ⟨rfl, hframed⟩ := ensureFramed_eq_ok_iff.mp hbytes
    exact ⟨bytes, Q, rfl, hframed, hQ, (Except.ok.inj h).symm⟩
  · rintro ⟨bytes, Q, rfl, hframed, hQ, rfl⟩
    exact setPublic_of_parse hframed hQ

/-- Either SEC1 form of a public point sets it. -/
theorem setPublic_format (hQ : PublicPoint backend d Q) (compressed : Bool) :
    k.setPublic backend (.bytes (backend.format Q compressed))
      = .ok { k with point := some Q, compressed := compressed } := by
  rw [setPublic_of_parse (hQ.isFramed_format compressed) (hQ.parse?_format compressed),
    hQ.length_format, formSize_beq]

/-! ## Export and import -/

/-- A scalar that fits 32 bytes is exported in them, next to the point. -/
theorem toDer_of_encode (hs : k.secret = some h) (hv : v.get h = .live buffer)
    (hpoint : k.point = some Q) (hd : Bytes.toNat buffer < 256 ^ scalarSize)
    (henc : EcPrivateKey.encode .secp256k1 (Bytes.ofNat scalarSize (Bytes.toNat buffer))
      (backend.format Q k.compressed) = .ok der) :
    k.toDer backend v = .ok (some der) := by
  have hbytes : (v.get h).toBytes scalarSize
      = .ok (Bytes.ofNat scalarSize (Bytes.toNat buffer)) := by
    rw [hv, SecretScalar.toBytes_of_fits hd]
  rw [toDer, hs, hpoint]
  dsimp only
  rw [hbytes]
  simp only [bind, Except.bind, henc]

/-- A point that is not too long can be exported, and what is exported can be taken apart. -/
theorem exists_toDer (hs : k.secret = some h) (hv : v.get h = .live buffer)
    (hpoint : k.point = some Q) (hd : Bytes.toNat buffer < 256 ^ scalarSize)
    (hlen : (backend.format Q k.compressed).length = formSize k.compressed) :
    ∃ der, k.toDer backend v = .ok (some der)
      ∧ EcPrivateKey.readParts backend .secp256k1 der
          = .ok (Bytes.ofNat scalarSize (Bytes.toNat buffer),
              some (backend.format Q k.compressed)) := by
  have hne : backend.format Q k.compressed ≠ [] := by
    rw [← List.length_pos_iff, hlen]
    exact formSize_pos k.compressed
  obtain ⟨der, henc, hparts⟩ := EcPrivateKey.readParts_encode backend
    (Bytes.ofNat_length scalarSize (Bytes.toNat buffer)) hne (hlen ▸ formSize_lt k.compressed)
  exact ⟨der, toDer_of_encode hs hv hpoint hd henc, hparts⟩

/-- A key whose halves match exports to bytes that are imported as a key with the same scalar
and the same point, exported in the same form. -/
theorem ofDer_toDer (hQ : PublicPoint backend d Q) (hd : 1 ≤ d ∧ d < groupOrder)
    (hs : k.secret = some h) (hv : v.get h = .live buffer) (hbuffer : Bytes.toNat buffer = d)
    (hpoint : k.point = some Q) :
    ∃ der, k.toDer backend v = .ok (some der)
      ∧ ∀ w : Vault, ofDer backend (.bytes der) w
          = (.ok ⟨some w.cells.length, some Q, k.compressed⟩,
              (w.put (.live (Bytes.ofNat scalarSize d))).2) := by
  subst hbuffer
  have hfits : Bytes.toNat buffer < 256 ^ scalarSize := Nat.lt_trans hd.2 (by decide)
  obtain ⟨der, hto, hparts⟩ := exists_toDer hs hv hpoint hfits (hQ.length_format k.compressed)
  have hdec := EcPrivateKey.decode_of_readParts hparts (Bytes.ofNat_length _ _)
  rw [Bytes.toNat_ofNat hfits, if_pos ⟨hd.1, Int.ofNat_lt.mpr hd.2⟩] at hdec
  have himports := Imports.embedded hd hdec hQ.ofScalar (hQ.parse?_format k.compressed) rfl
  rw [hQ.length_format, formSize_beq] at himports
  exact ⟨der, hto, himports.ofDer⟩

/-! ## Verification -/

/-- A signature of a public point's scalar is valid for every key with that point. -/
theorem verify_of_point {r s : Nat} (hpoint : k.point = some Q) (hlen : digest.length = digestSize)
    (hrange : Signature.InRange r s) (hlow : s ≤ groupOrder / 2)
    (hyes : backend.verify? Q (Signature.encode r s) digest = some true) :
    k.verify backend (.bytes digest) (.bytes (Signature.encode r s)) = .ok .valid := by
  have hdigest : ensureDigest (.bytes digest) = .ok digest := if_pos hlen
  have hbytes : ensureSignature (.bytes (Signature.encode r s)) = .ok (Signature.encode r s) := rfl
  rw [verify, hpoint]
  simp only [bind, Except.bind, hdigest, hbytes, Signature.verifyDigest_low hrange hlow, hyes]
  rfl

end Key

end SecpKey
