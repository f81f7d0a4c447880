/-
  SecpKey.Proofs.Keyring.Reexport

  Exporting what was imported.  Of all that can differ between private key files, scalar and
  point form alone are left: the export is the one named-curve form with them, however the
  scalar was padded, and whatever parameters and public key were there (`Canonical`).
  It is imported as the same key, so exporting it again gives the same bytes.
-/
import SecpKey.Proofs.Keyring.Import

namespace SecpKey

variable {P : Type} {backend : Backend P}

/-- The forms that the backend writes of its points.  They have the sizes of SEC1, depend on the
coordinates alone and are read as the point they are of. -/
structure Sec1Forms (backend : Backend P) : Prop where
  length_format : ∀ {Q : P} (compressed : Bool), Given backend Q →
    (backend.format Q compressed).length = formSize compressed
  parse?_format : ∀ {Q : P} (compressed : Bool), Given backend Q →
    backend.parse? (backend.format Q compressed) = some Q
  format_eq : ∀ {Q R : P} (compressed : Bool), Given backend Q → Given backend R →
    backend.coordinates Q = backend.coordinates R →
    backend.format Q compressed = backend.format R compressed

theorem sec1Forms_secp256k1 : Sec1Forms Backend.secp256k1 where
  length_format compressed _ := Point.length_format _ compressed
  parse?_format compressed hQ := Point.parse?_format hQ.onCurve compressed
  format_eq {Q R} compressed _ _ hsame := by
    obtain ⟨hx, hy⟩ := Prod.mk.inj hsame
    obtain rfl : Q = R := by
      cases Q
      cases R
      exact congrArg₂ Point.mk hx hy
    rfl

/-! ## The export of what bytes denote -/

namespace EcPrivateKey

/-- The bytes are the named-curve form of the scalar `d` in 32 bytes and of an encoded point. -/
def IsNamedForm (d : Nat) (point der : Bytes) : Prop :=
  ∃ oid secret, Der.encodeObject curveOid = .ok oid
    ∧ secret.length = 32 ∧ Bytes.toNat secret = d
    ∧ der = Der.encodeSequence
        [Der.encodeInteger 1, Der.encodeOctetString secret, Der.encodeField 0 oid,
         Der.encodeField 1 (Der.encodeBitString point)]

theorem isNamedForm_encode {secret point der : Bytes}
    (h : encode Curve.secp256k1 secret point = .ok der) :
    IsNamedForm (Bytes.toNat secret) point der := by
  rw [encode] at h
  split at h
  · cases h
  next hsecret =>
  split at h
  · cases h
  split at h
  · cases h
  next oid hoid =>
  exact ⟨oid, secret, hoid, not_not.mp hsecret, rfl, (Except.ok.inj h).symm⟩

/-- There is one such form. -/
theorem IsNamedForm.unique {d : Nat} {point der der' : Bytes} (h : IsNamedForm d point der)
    (h' : IsNamedForm d point der') : der = der' := by
  obtain ⟨oid, secret, hoid, hlen, hd, rfl⟩ := h
  obtain ⟨oid', secret', hoid', hlen', hd', rfl⟩ := h'
  obtain rfl := Except.ok.inj (hoid.symm.trans hoid')
  have hsecret : secret = secret' := by
    rw [← Bytes.ofNat_toNat secret, ← Bytes.ofNat_toNat secret', hlen, hlen', hd, hd']
  rw [hsecret]

end EcPrivateKey

namespace Key.Imports

variable {data : Bytes} {publicKey : Option Bytes} {d : Nat} {Q : P} {compressed : Bool}

/-- What bytes denote can be written with the point of the scalar itself, and that denotes the
same scalar, point and form. -/
theorem exists_encode (hforms : Sec1Forms backend)
    (h : Imports backend data publicKey d Q compressed) :
    ∃ R der, backend.ofScalar d = .ok R
      ∧ backend.format Q compressed = backend.format R compressed
      ∧ EcPrivateKey.encode .secp256k1 (Bytes.ofNat scalarSize d) (backend.format Q compressed)
          = .ok der
      ∧ Imports backend der (some (backend.format Q compressed)) d Q compressed := by
  have hd := h.range
  have hval := SecretScalar.toNat_ofNat_scalarSize hd.2
  have hlen := hforms.length_format compressed h.given
  have hne : backend.format Q compressed ≠ [] := by
    rw [← List.length_pos_iff, hlen]
    exact formSize_pos compressed
  obtain ⟨R, hR, hsame⟩ := h.exists_expected
  obtain ⟨der, henc, hdec⟩ := EcPrivateKey.decode_encode backend (Bytes.ofNat_length scalarSize d)
    (hval.symm ▸ hd) hne (hlen ▸ formSize_lt compressed)
  have himports := Imports.embedded hd hdec hR (hforms.parse?_format compressed h.given) hsame
  rw [hlen, formSize_beq] at himports
  exact ⟨R, der, hR, hforms.format_eq compressed h.given (.ofScalar hR) hsame, henc, himports⟩

end Key.Imports

namespace Keyring

variable {ring : Keyring P}

/-! ## In a keyring -/

/-- Into whatever keyring `data` is imported, the new key holds the scalar `d`, has the form that
`compressed` says, and is exported to `der`. -/
def Denotes (backend : Backend P) (data : Bytes) (d : Nat) (compressed : Bool) (der : Bytes) :
    Prop :=
  ∀ ring : Keyring P, ∃ after,
    ring.perform backend (.ofDer (.bytes data)) = (.ok (.made ring.keys.length []), after)
      ∧ after.HoldsScalar ring.keys.length d
      ∧ (after.keys[ring.keys.length]?).map (·.compressed) = some compressed
      ∧ after.perform backend (.toDer ring.keys.length) = (.ok (.bytes? (some der)), after)

/-- What is said of the export `der` of an imported private key. -/
structure Canonical (backend : Backend P) (data : Bytes) (d : Nat) (compressed : Bool)
    (der : Bytes) : Prop where
  denotes : Denotes backend data d compressed der
  /-- It is imported as well, and exported to itself. -/
  reimported : Denotes backend der d compressed der
  /-- It is the named-curve form with the point that belongs to the scalar. -/
  named : ∃ R, backend.ofScalar d = .ok R
    ∧ (backend.format R compressed).length = (if compressed then 33 else 65)
    ∧ EcPrivateKey.IsNamedForm d (backend.format R compressed) der
  /-- Importing both gives two keys that are equal. -/
  equal : ∀ ring : Keyring P,
    let first := (ring.perform backend (.ofDer (.bytes data))).2
    let both := (first.perform backend (.ofDer (.bytes der))).2
    both.perform backend (.equals (ring.keys.length + 1) ring.keys.length)
        = (.ok (.truth true), both)
      ∧ both.perform backend (.equals ring.keys.length (ring.keys.length + 1))
        = (.ok (.truth true), both)

section

variable {data der : Bytes} {publicKey : Option Bytes} {d : Nat} {Q : P} {compressed : Bool}

theorem denotes_of_imports (h : Key.Imports backend data publicKey d Q compressed)
    (henc : EcPrivateKey.encode .secp256k1 (Bytes.ofNat scalarSize d) (backend.format Q compressed)
      = .ok der) : Denotes backend data d compressed der := by
  intro ring
  have hd := h.range
  have hval := SecretScalar.toNat_ofNat_scalarSize hd.2
  have hk := keys_withCopy ring d Q compressed
  refine ⟨_, perform_ofDer_of_imports h ring, holdsScalar_withCopy ring hd.2 Q compressed, ?_, ?_⟩
  · rw [hk]
    rfl
  · have hto : Key.toDer backend ⟨some ring.vault.cells.length, some Q, compressed⟩
        (ring.withCopy d Q compressed).vault = .ok (some der) :=
      Key.toDer_of_encode rfl (get_withCopy ring d Q compressed) rfl
        (hval.symm ▸ Nat.lt_trans hd.2 (by decide)) (hval.symm ▸ henc)
    rw [perform, withKey, hk]
    dsimp only
    rw [hto]
    rfl

/-- Scalar and form are all that an import shows of what it was made of. -/
theorem Denotes.unique {d' : Nat} {compressed' : Bool} {der' : Bytes}
    (h : Denotes backend data d compressed der) (h' : Denotes backend data d' compressed' der') :
    d = d' ∧ compressed = compressed' := by
  obtain ⟨after, hmade, ⟨n, buffer, hs, hcell, hd⟩, hform, -⟩ := h empty
  obtain ⟨after', hmade', ⟨n', buffer', hs', hcell', hd'⟩, hform', -⟩ := h' empty
  obtain rfl := congrArg Prod.snd (hmade.symm.trans hmade')
  dsimp only at hs' hcell' hform'
  obtain rfl := Option.some.inj (hs.symm.trans hs')
  obtain rfl := SecretScalar.live.inj (hcell.symm.trans hcell')
  exact ⟨hd.symm.trans hd', Option.some.inj (hform.symm.trans hform')⟩

end

/-- Every private key that is imported has a canonical form, and two have the same exactly if
they denote the same scalar and the same form. -/
theorem exists_canonical (hforms : Sec1Forms backend) :
    (∀ {ring : Keyring P} {data : Bytes} {answer : KeyAnswer},
        (ring.perform backend (.ofDer (.bytes data))).1 = .ok answer →
          ∃ d compressed der, Canonical backend data d compressed der)
      ∧ ∀ {data data' der der' : Bytes} {d d' : Nat} {compressed compressed' : Bool},
          Canonical backend data d compressed der → Canonical backend data' d' compressed' der' →
            (der = der' ↔ d = d' ∧ compressed = compressed') := by
  constructor
  · intro ring data answer hanswer
    obtain ⟨publicKey, d, Q, compressed, h⟩ := exists_imports_of_perform hanswer
    obtain ⟨R, der, hR, hformat, henc, hre⟩ := h.exists_encode hforms
    have hval := SecretScalar.toNat_ofNat_scalarSize h.range.2
    refine ⟨d, compressed, der, denotes_of_imports h henc, denotes_of_imports hre henc,
      ⟨R, hR, ?_, ?_⟩, fun ring => ?_⟩
    · exact hforms.length_format compressed (.ofScalar hR)
    · have hnamed := EcPrivateKey.isNamedForm_encode henc
      rw [hval, hformat] at hnamed
      exact hnamed
    · let first := ring.withCopy d Q compressed
      let both := first.withCopy d Q compressed
      have hpoint : first.point? ring.keys.length = some Q := by
        rw [point?, keys_withCopy, Option.bind_some]
      have hequals : both.perform backend (.equals first.keys.length ring.keys.length)
            = (.ok (.truth true), both)
          ∧ both.perform backend (.equals ring.keys.length first.keys.length)
            = (.ok (.truth true), both) :=
        equals_withCopy (Nat.lt_trans h.range.2 (by decide))
          (holdsScalar_withCopy ring h.range.2 Q compressed) hpoint
      have hlength : first.keys.length = ring.keys.length + 1 := List.length_append
      rw [hlength] at hequals
      dsimp only
      rw [perform_ofDer_of_imports h, perform_ofDer_of_imports hre]
      exact hequals
  · intro data data' der der' d d' compressed compressed' h h'
    constructor
    · rintro rfl
      exact h.reimported.unique h'.reimported
    · rintro ⟨rfl, rfl⟩
      -- The point of the scalar is the same, so the same is written.
      obtain ⟨R, hR, -, hnamed⟩ := h.named
      obtain ⟨R', hR', -, hnamed'⟩ := h'.named
      obtain rfl := Except.ok.inj (hR.symm.trans hR')
      exact hnamed.unique hnamed'

/-- The scalar two again, with a zero byte in front. -/
def paddedPrivateKey : Bytes := [0x30, 0x07, 0x02, 0x01, 0x01, 0x04, 0x02, 0x00, 0x02]

theorem exists_canonical_short :
    Sec1Forms Backend.secp256k1
      ∧ ∃ d compressed der d' compressed' der',
          Canonical Backend.secp256k1 shortPrivateKey d compressed der
            ∧ Canonical Backend.secp256k1 paddedPrivateKey d' compressed' der'
            ∧ (der = der' ↔ d = d' ∧ compressed = compressed') := by
  have hmade : ((empty : Keyring Point).perform Backend.secp256k1
        (.ofDer (.bytes shortPrivateKey))).1 = .ok (.made 0 [])
      ∧ ((empty : Keyring Point).perform Backend.secp256k1
        (.ofDer (.bytes paddedPrivateKey))).1 = .ok (.made 0 []) := by decide +kernel
  obtain ⟨hcanonical, hiff⟩ := exists_canonical sec1Forms_secp256k1
  obtain ⟨d, compressed, der, h⟩ := hcanonical hmade.1
  obtain ⟨d', compressed', der', h'⟩ := hcanonical hmade.2
  exact ⟨sec1Forms_secp256k1, d, compressed, der, d', compressed', der', h, h', hiff h h'⟩

end Keyring

end SecpKey
