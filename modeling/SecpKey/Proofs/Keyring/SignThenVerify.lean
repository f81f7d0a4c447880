/-
  SecpKey.Proofs.Keyring.SignThenVerify

  A signature that a key gave is valid, for that key and for every other key with the same
  public point, however it came by it.  `SignatureOf` lists what is said of a signature;
  `sign_then_verify` gives one for every scalar and digest that the backend signs.
-/
import SecpKey.Proofs.Key.Signing
import SecpKey.Proofs.Keyring.Ownership

namespace SecpKey.Keyring

variable {P : Type} {backend : Backend P} {ring : Keyring P} {d i j : Nat} {Q : P}
  {digest signature : Bytes}

/-! ## Keys in a keyring -/

/-- Key `i` has a private half, and its container holds `v`, in bytes of any length. -/
def HoldsScalar (ring : Keyring P) (i v : Nat) : Prop :=
  ∃ h buffer, ring.secretAt i = some h ∧ ring.vault.get h = .live buffer
    ∧ Bytes.toNat buffer = v

theorem exists_key_of_secretAt {h : Nat} (hs : ring.secretAt i = some h) :
    ∃ k, ring.keys[i]? = some k ∧ k.secret = some h :=
  Option.bind_eq_some_iff.mp hs

theorem exists_key_of_point? (hp : ring.point? j = some Q) :
    ∃ k, ring.keys[j]? = some k ∧ k.point = some Q :=
  Option.bind_eq_some_iff.mp hp

/-- The container of a key is never a wiped one. -/
theorem Reachable.holdsScalar (hr : Reachable backend ring) {h : Nat}
    (hs : ring.secretAt i = some h) : ∃ v, ring.HoldsScalar i v := by
  obtain ⟨buffer, hcell⟩ := Vault.exists_get (hr.owned.live hs)
  exact ⟨_, h, buffer, hs, hcell, rfl⟩

theorem HoldsScalar.eq {e : Nat} (hd : ring.HoldsScalar i d) (he : ring.HoldsScalar i e) :
    d = e := by
  obtain ⟨h, buffer, hs, hcell, rfl⟩ := hd
  obtain ⟨h', buffer', hs', hcell', rfl⟩ := he
  obtain rfl := Option.some.inj (hs.symm.trans hs')
  rw [SecretScalar.live.inj (hcell.symm.trans hcell')]

/-- What keeps keys and containers keeps scalars. -/
theorem HoldsScalar.of_kept {v : Vault} (hd : ring.HoldsScalar i d) (hv : ring.vault.Kept v) :
    HoldsScalar { ring with vault := v } i d := by
  obtain ⟨h, buffer, hs, hcell, hval⟩ := hd
  exact ⟨h, buffer, hs, (hv.get_eq h).trans hcell, hval⟩

/-! ## Operations in a keyring -/

theorem perform_sign {h : Nat} {buffer : Bytes} (hs : ring.secretAt i = some h)
    (hv : ring.vault.get h = .live buffer) (hd : Bytes.toNat buffer < groupOrder)
    (hlen : digest.length = digestSize) (hadmits : backend.admits (Bytes.toNat buffer) = true)
    (hsign : backend.sign (Bytes.toNat buffer) digest = .ok signature) :
    ∃ v, ring.vault.Kept v ∧ ring.perform backend (.sign i (.bytes digest))
      = (.ok (.bytes signature), { ring with vault := v }) := by
  obtain ⟨k, hk, hsecret⟩ := exists_key_of_secretAt hs
  have hok := k.sign_of_live hsecret hv hd hlen hadmits hsign
  have hkept : ring.vault.Kept (k.sign backend (.bytes digest) ring.vault).2 :=
    (k.outcome_sign _ _).kept
  refine ⟨_, hkept, ?_⟩
  rw [perform, withKey, hk]
  dsimp only
  rw [hok]
  rfl

theorem perform_verify {r s : Nat} (hp : ring.point? j = some Q) (hlen : digest.length = digestSize)
    (hrange : Signature.InRange r s) (hlow : s ≤ groupOrder / 2)
    (hyes : backend.verify? Q (Signature.encode r s) digest = some true) :
    ring.perform backend (.verify j (.bytes digest) (.bytes (Signature.encode r s)))
      = (.ok (.result .valid), ring) := by
  obtain ⟨k, hk, hpoint⟩ := exists_key_of_point? hp
  rw [perform, withKey, hk]
  dsimp only
  rw [Key.verify_of_point hpoint hlen hrange hlow hyes]
  rfl

theorem perform_setPublic (hQ : PublicPoint backend d Q) (hj : j < ring.keys.length)
    (compressed : Bool) :
    ∃ after, ring.perform backend (.setPublic j (.bytes (backend.format Q compressed)))
        = (.ok .done, after) ∧ after.point? j = some Q := by
  have hk := List.getElem?_eq_getElem hj
  rw [perform, withKey, hk]
  dsimp only
  rw [Key.setPublic_format hQ]
  refine ⟨_, rfl, ?_⟩
  show ((ring.keys.set j _)[j]?).bind (·.point) = some Q
  rw [List.getElem?_set_self hj, Option.bind_some]

theorem perform_toDer_ofDer (hQ : PublicPoint backend d Q) (hd : 1 ≤ d ∧ d < groupOrder)
    (hs : ring.HoldsScalar i d) (hp : ring.point? i = some Q) :
    ∃ der, ring.perform backend (.toDer i) = (.ok (.bytes? (some der)), ring)
      ∧ ∀ other : Keyring P, ∃ after,
          other.perform backend (.ofDer (.bytes der)) = (.ok (.made other.keys.length []), after)
            ∧ after.point? other.keys.length = some Q := by
  obtain ⟨h, buffer, hsecret, hcell, hval⟩ := hs
  obtain ⟨k, hk, hsecret⟩ := exists_key_of_secretAt hsecret
  obtain ⟨k', hk', hpoint⟩ := exists_key_of_point? hp
  -- Scalar and point belong to one key.
  obtain rfl := Option.some.inj (hk.symm.trans hk')
  obtain ⟨der, hto, hof⟩ := Key.ofDer_toDer hQ hd hsecret hcell hval hpoint
  refine ⟨der, ?_, fun other => ?_⟩
  · rw [perform, withKey, hk]
    dsimp only
    rw [hto]
    rfl
  · rw [perform, hof]
    refine ⟨_, rfl, ?_⟩
    show ((other.keys ++ [_])[other.keys.length]?).bind (·.point) = some Q
    rw [List.getElem?_concat_length, Option.bind_some]

/-! ## Signatures -/

/-- What the signature of a digest under the scalar `d` with the public point `Q` is good for. -/
structure SignatureOf (backend : Backend P) (d : Nat) (Q : P) (digest signature : Bytes) :
    Prop where
  /-- Whatever backend a verification asks, it is asked about these very bytes. -/
  passed_on : ∀ {P' : Type} (other : Backend P') (R : P') (message : Bytes),
    Signature.verifyDigest other R message signature
      = .ok (Signature.resultOf (other.verify? R signature message))
  /-- A key with a private half holds a scalar, and if that is `d`, signing gives these bytes
  and leaves keys and containers as they were; the next time it will be the same. -/
  signed : ∀ {ring : Keyring P} {i h : Nat}, Reachable backend ring → ring.secretAt i = some h →
    ∃ v, ring.HoldsScalar i v ∧ (v = d →
      ∃ after, ring.perform backend (.sign i (.bytes digest)) = (.ok (.bytes signature), after)
        ∧ after.keys = ring.keys ∧ ring.vault.Kept after.vault
        ∧ Reachable backend after ∧ after.HoldsScalar i d)
  /-- It is valid for every key with the public point, the signing one included. -/
  verified : ∀ {ring : Keyring P} {j : Nat}, ring.point? j = some Q →
    ring.perform backend (.verify j (.bytes digest) (.bytes signature))
      = (.ok (.result .valid), ring)
  /-- It is valid for a key that is given either SEC1 form of the point. -/
  verified_setPublic : ∀ {ring : Keyring P} {j : Nat} (compressed : Bool), j < ring.keys.length →
    ∃ after, ring.perform backend (.setPublic j (.bytes (backend.format Q compressed)))
        = (.ok .done, after)
      ∧ after.perform backend (.verify j (.bytes digest) (.bytes signature))
        = (.ok (.result .valid), after)
  /-- It is valid for the key that is imported from the export of one whose halves match. -/
  verified_ofDer : ∀ {ring : Keyring P} {i : Nat}, ring.HoldsScalar i d →
    ring.point? i = some Q →
    ∃ der, ring.perform backend (.toDer i) = (.ok (.bytes? (some der)), ring)
      ∧ ∀ other : Keyring P, ∃ after,
          other.perform backend (.ofDer (.bytes der)) = (.ok (.made other.keys.length []), after)
            ∧ after.perform backend
                (.verify other.keys.length (.bytes digest) (.bytes signature))
              = (.ok (.result .valid), after)

/-- Signing gives the one signature that every key with the public point finds valid. -/
theorem sign_then_verify (hd : 1 ≤ d ∧ d < groupOrder) (hlen : digest.length = digestSize)
    (hQ : PublicPoint backend d Q) (hs : Signs backend d Q digest) :
    ∃ signature, SignatureOf backend d Q digest signature := by
  obtain ⟨r, s, hrange, hlow, hsign, hyes⟩ := hs.signature
  have hverify : ∀ {ring : Keyring P} {j : Nat}, ring.point? j = some Q →
      ring.perform backend (.verify j (.bytes digest) (.bytes (Signature.encode r s)))
        = (.ok (.result .valid), ring) :=
    fun hp => perform_verify hp hlen hrange hlow hyes
  refine ⟨Signature.encode r s, ⟨?_, ?_, hverify, ?_, ?_⟩⟩
  · intro P' other R message
    exact Signature.verifyDigest_low hrange hlow
  · intro ring i h hr hsecret
    -- Ownership keeps the container live, so a private half always holds a scalar.
    obtain ⟨v, hv⟩ := hr.holdsScalar hsecret
    refine ⟨v, hv, ?_⟩
    rintro rfl
    obtain ⟨h', buffer, hs', hcell, rfl⟩ := hv
    obtain ⟨w, hkept, hperform⟩ := perform_sign hs' hcell hd.2 hlen hs.admits hsign
    have hafter := hr.perform (.sign i (.bytes digest))
    rw [hperform] at hafter
    exact ⟨_, hperform, rfl, hkept, hafter, HoldsScalar.of_kept ⟨h', buffer, hs', hcell, rfl⟩ hkept⟩
  · intro ring j compressed hj
    obtain ⟨after, hset, hp⟩ := perform_setPublic hQ hj compressed
    exact ⟨after, hset, hverify hp⟩
  · intro ring i hscalar hp
    -- The import may go to any keyring, also to one of another run.
    obtain ⟨der, hto, hof⟩ := perform_toDer_ofDer hQ hd hscalar hp
    refine ⟨der, hto, fun other => ?_⟩
    obtain ⟨after, hmade, hp'⟩ := hof other
    exact ⟨after, hmade, hverify hp'⟩

/-- The scalar two, held with zeros in front, on the curve arithmetic of this library. -/
theorem sign_then_verify_two :
    ∃ (Q : Point) (ring : Keyring Point) (signature : Bytes),
      PublicPoint Backend.secp256k1 2 Q
        ∧ Signs Backend.secp256k1 2 Q (Bytes.ofNat digestSize 1)
        ∧ Reachable Backend.secp256k1 ring ∧ ring.secretAt 0 = some 0 ∧ ring.HoldsScalar 0 2
        ∧ SignatureOf Backend.secp256k1 2 Q (Bytes.ofNat digestSize 1) signature := by
  have hd : 1 ≤ 2 ∧ 2 < groupOrder := by decide
  have hlen : (Bytes.ofNat digestSize 1).length = digestSize := Bytes.ofNat_length _ _
  obtain ⟨Q, hQ, hon, helem⟩ := exists_publicPoint_secp256k1 hd
  have hnonce : (Ecdsa.sign? 2 (Ecdsa.messageScalar (Bytes.ofNat digestSize 1))).isSome = true := by
    decide +kernel
  obtain ⟨⟨r, s⟩, hsign⟩ := Option.isSome_iff_exists.mp hnonce
  have hs := signs_secp256k1 hd hon helem hlen hsign
  obtain ⟨signature, hsignature⟩ := sign_then_verify hd hlen hQ hs
  have hempty : Reachable Backend.secp256k1 .empty := .empty
  have hring := (hempty.perform .new).perform (.setPrivate 0 (.bytes [0, 0, 2]))
  exact ⟨Q, _, signature, hQ, hs, hring, rfl, ⟨0, [0, 0, 2], rfl, rfl, rfl⟩, hsignature⟩

end SecpKey.Keyring
