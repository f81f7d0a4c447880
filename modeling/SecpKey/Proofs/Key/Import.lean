/-
  SecpKey.Proofs.Key.Import

  Which bytes denote a key.  `Imports` does not mention the vault, so importing has one outcome
  everywhere (`Imports.ofDer`).  Where the backend multiplies the generator, the bytes denote a
  key exactly if they are decoded and their parts agree (`exists_imports_iff`), and setting the
  scalar and deriving the point comes to the same key (`regenerate_of_live`).
-/
import SecpKey.Proofs.Key.Export

namespace SecpKey

variable {P : Type} {backend : Backend P}

/-! ## What is asked of the backend -/

/-- The coordinates of the multiple of the generator by `d`; none for the point at infinity. -/
def generatorMultiple? (d : Nat) : Option (Nat × Nat) :=
  (Point.smul? d .generator).map fun Q => (Q.x, Q.y)

/-- The backend multiplies the generator by every scalar in `[1, n-1]`. -/
def MultipliesGenerator (backend : Backend P) : Prop := ∀ {d : Nat}, 1 ≤ d ∧ d < groupOrder →
  ∃ R, backend.ofScalar d = .ok R ∧ generatorMultiple? d = some (backend.coordinates R)

/-- The backend reads no other bytes than those that are framed as a SEC1 form. -/
def ReadsFramed (backend : Backend P) : Prop :=
  ∀ {bytes : Bytes} {Q : P}, backend.parse? bytes = some Q → isFramed bytes = true

theorem multipliesGenerator_secp256k1 : MultipliesGenerator Backend.secp256k1 := by
  intro d hd
  obtain ⟨R, hR, -, -⟩ := exists_publicPoint_secp256k1 hd
  refine ⟨R, hR.ofScalar, ?_⟩
  have hmultiple := hR.ofScalar
  simp only [Backend.secp256k1, isValidScalar_natCast.mpr hd, if_true] at hmultiple
  split at hmultiple
  · next Q hQ =>
    obtain rfl := Except.ok.inj hmultiple
    rw [generatorMultiple?, hQ]
    rfl
  · cases hmultiple

theorem readsFramed_secp256k1 : ReadsFramed Backend.secp256k1 := Point.isFramed_of_parse?

/-- The public key of a file is a form of the multiple of the generator by `d`, if there is one. -/
def PartsAgree (backend : Backend P) (d : Nat) : Option Bytes → Prop
  | none => True
  | some publicKey => ∃ Q, backend.parse? publicKey = some Q
      ∧ generatorMultiple? d = some (backend.coordinates Q)

namespace Key

variable {data : Bytes} {publicKey : Option Bytes} {d : Nat} {Q : P} {compressed : Bool}

/-- Where the backend multiplies the generator, bytes denote a key exactly if they are decoded
and their parts agree. -/
theorem exists_imports_iff (hmul : MultipliesGenerator backend) :
    (∃ publicKey d Q compressed, Imports backend data publicKey d Q compressed)
      ↔ ∃ decoded, EcPrivateKey.decode backend .secp256k1 data = .ok decoded
          ∧ PartsAgree backend (Bytes.toNat decoded.secret) decoded.publicKey := by
  constructor
  · rintro ⟨publicKey, d, Q, compressed, h⟩
    refine ⟨_, h.decoded, ?_⟩
    dsimp only
    rw [SecretScalar.toNat_ofNat_scalarSize h.range.2]
    cases h with
    | derived _ _ _ => trivial
    | embedded range _ expected parsed same =>
        obtain ⟨R, hR, hmultiple⟩ := hmul range
        obtain rfl := Except.ok.inj (expected.symm.trans hR)
        exact ⟨Q, parsed, by rw [hmultiple, same]⟩
  · rintro ⟨⟨secret, publicKey⟩, hdec, hagree⟩
    obtain ⟨d, hd, rfl⟩ := EcPrivateKey.exists_of_decode hdec
    obtain ⟨R, hR, hmultiple⟩ := hmul hd
    dsimp only at hagree
    rw [SecretScalar.toNat_ofNat_scalarSize hd.2] at hagree
    cases publicKey with
    | none => exact ⟨none, d, R, false, .derived hd hdec hR⟩
    | some bytes =>
        obtain ⟨Q, parsed, hQ⟩ := hagree
        have same := Option.some.inj (hQ.symm.trans hmultiple)
        exact ⟨some bytes, d, Q, _, .embedded hd hdec hR parsed same⟩

/-! ## The same key from its parts -/

/-- A scalar in range moves to a new container, and its point is set next to it. -/
theorem regenerate_of_live {k : Key P} {v : Vault} {old : Nat} {buffer : Bytes}
    (hs : k.secret = some old) (hv : v.get old = .live buffer)
    (hd : 1 ≤ Bytes.toNat buffer ∧ Bytes.toNat buffer < groupOrder)
    (hQ : backend.ofScalar (Bytes.toNat buffer) = .ok Q) :
    k.regenerate backend v
      = (.ok { k with secret := some v.cells.length, point := some Q },
          (v.put (.live buffer)).2.wipe old) := by
  have hvalid := isValidScalar_natCast.mpr hd
  rw [regenerate, hs]
  dsimp only
  rw [hv]
  dsimp only [SecretScalar.copy, SecretScalar.read, Except.map, SecretScalar.value]
  rw [Vault.put_eq]
  dsimp only
  rw [if_pos hvalid, toBytes_of_get (Vault.get_put_length _ _) hd.2]
  dsimp only
  rw [SecretScalar.toNat_ofNat_scalarSize hd.2, hQ]

end Key

end SecpKey
