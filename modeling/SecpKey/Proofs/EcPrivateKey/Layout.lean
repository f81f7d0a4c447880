/-
  SecpKey.Proofs.EcPrivateKey.Layout

  What a private key file looks like.  `layout` puts the four parts behind each other with
  either field present or absent, and `decode_eq_ok_iff` says which files are read, and as
  what: a layout whose parts pass their own tests, and no other byte string.
-/
import SecpKey.EcPrivateKey
import SecpKey.Proofs.Der.Element

namespace SecpKey

namespace EcPrivateKey

variable {P : Type} {backend : Backend P} {curve : Curve}

/-! ## Checks -/

theorem lift_eq_ok {α : Type} {x : Except Der.Fault α} {a : α} : lift x = .ok a ↔ x = .ok a :=
  mapError_eq_ok

theorem ensure_eq_ok {condition : Bool} {cause : DecodeFault} {u : Unit} :
    ensure condition cause = .ok u ↔ condition = true := by
  rw [ensure]
  split
  · next h => simp [h]
  · next h => simp [h]

/-! ## Layouts -/

/-- The parts of a private key, with the contents of either field if it is there. -/
def layout (secret : Bytes) (parameters wrapped : Option Bytes) : Bytes :=
  Der.encodeInteger keyVersion ++ (Der.encodeOctetString secret
    ++ (Der.optionalField parametersField parameters
      ++ Der.optionalField publicKeyField wrapped))

/-- Every part is shorter than the whole. -/
theorem lengths_of_layout {secret : Bytes} {parameters wrapped : Option Bytes}
    (h : (layout secret parameters wrapped).length < Der.lengthLimit) :
    secret.length < Der.lengthLimit
      ∧ (∀ contents, parameters = some contents → contents.length < Der.lengthLimit)
      ∧ ∀ contents, wrapped = some contents → contents.length < Der.lengthLimit := by
  have hfield : ∀ (number : Nat) (field : Option Bytes) (contents : Bytes),
      field = some contents → contents.length < (Der.optionalField number field).length := by
    rintro number _ contents rfl
    exact Der.length_lt_encodeElement (.field number) contents
  have hoctets := Der.length_lt_encodeElement .octetString secret
  rw [← Der.encodeOctetString] at hoctets
  simp only [layout, List.length_append] at h
  refine ⟨by omega, ?_, ?_⟩
  · intro contents hc
    have := hfield parametersField parameters contents hc
    omega
  · intro contents hc
    have := hfield publicKeyField wrapped contents hc
    omega

/-- The public key's field is not taken for that of the parameters. -/
theorem head?_publicKeyField_ne (wrapped : Option Bytes) :
    (Der.optionalField publicKeyField wrapped).head?
      ≠ some (Der.Tag.field parametersField).byte := by
  cases wrapped with
  | none => simp [Der.optionalField]
  | some contents =>
      have hhead := Der.head?_encodeField publicKeyField contents []
      rw [List.append_nil] at hhead
      rw [Der.optionalField, hhead]
      decide

/-- The public key inside its field is a bit string, which may say to have more than it has. -/
theorem readPublicKey_eq_ok_iff {wrapped publicKey : Option Bytes} :
    readPublicKey wrapped = .ok publicKey
      ↔ ∃ declared, wrapped = publicKey.map (Der.bitString declared)
          ∧ ∀ payload, publicKey = some payload →
              declared < Der.lengthLimit ∧ payload.length + 1 ≤ declared := by
  cases wrapped with
  | none =>
      cases publicKey with
      | none => simp [readPublicKey]
      | some payload => simp [readPublicKey]
  | some contents =>
      simp only [readPublicKey, bind_eq_ok, Prod.exists, lift_eq_ok, ensure_eq_ok, beq_iff_eq,
        Der.readBitString_eq_ok_iff]
      constructor
      · rintro ⟨payload, _, ⟨declared, rfl, hdeclared, hle, -⟩, _, rfl, h⟩
        obtain rfl := Except.ok.inj h
        refine ⟨declared, by rw [List.append_nil, Option.map_some], ?_⟩
        rintro _ ⟨⟩
        exact ⟨hdeclared, hle⟩
      · rintro ⟨declared, hwrapped, h⟩
        cases publicKey with
        | none => simp at hwrapped
        | some payload =>
            obtain rfl := Option.some.inj hwrapped
            obtain ⟨hdeclared, hle⟩ := h payload rfl
            exact ⟨payload, [], ⟨declared, by rw [List.append_nil], hdeclared, hle, .inr rfl⟩,
              (), rfl, rfl⟩

/-! ## Reading -/

/-- A file is taken apart into what it was made of, and every part passes its own test. -/
theorem readParts_eq_ok_iff {data secret : Bytes} {publicKey : Option Bytes} :
    readParts backend curve data = .ok (secret, publicKey)
      ↔ ∃ parameters wrapped,
          data = Der.encodeElement .sequence (layout secret parameters wrapped)
          ∧ (layout secret parameters wrapped).length < Der.lengthLimit
          ∧ acceptField backend curve parameters = .ok ()
          ∧ readPublicKey wrapped = .ok publicKey := by
  simp only [readParts, bind_eq_ok, Prod.exists, lift_eq_ok, ensure_eq_ok, beq_iff_eq,
    Der.readSequence, Der.readOctetString, Der.readElement_eq_ok_iff, Der.readInteger_eq_ok_iff,
    Der.readField?_eq_ok_iff]
  constructor
  -- The readers one after the other, each leaving the rest to the next, and the last nothing.
  · rintro ⟨_, _, ⟨rfl, hlen⟩, _, rfl, _, _, ⟨rfl, -⟩, _, rfl, octets, _, ⟨rfl, -⟩, parameters, _,
      ⟨rfl, -, -⟩, _, hacc, wrapped, _, ⟨rfl, -, -⟩, key, hkey, _, rfl, h⟩
    obtain ⟨rfl, rfl⟩ := by simpa using h
    rw [List.append_nil] at hlen ⊢
    refine ⟨parameters, wrapped, ?_, ?_, hacc, hkey⟩
    · rw [layout, List.append_nil, Der.encodeOctetString]
    · exact hlen
  · rintro ⟨parameters, wrapped, rfl, hlen, hacc, hkey⟩
    obtain ⟨hsecret, hparameters, hwrapped⟩ := lengths_of_layout hlen
    have hversion : (Der.integerContents keyVersion).length < Der.lengthLimit := by decide
    refine ⟨_, [], ⟨by rw [List.append_nil], hlen⟩, (), rfl, keyVersion, _, ⟨rfl, hversion⟩, (),
      rfl, secret, _, ⟨rfl, hsecret⟩, parameters, _, ⟨rfl, ?_, hparameters⟩, (), hacc, wrapped, [],
      ⟨by rw [List.append_nil], by simp, hwrapped⟩, publicKey, hkey, (), rfl, rfl⟩
    intro _
    exact head?_publicKeyField_ne wrapped

/-- A private key is read from a layout around a scalar in range, and as that scalar. -/
theorem decode_eq_ok_iff {data : Bytes} {decoded : Decoded} :
    decode backend curve data = .ok decoded
      ↔ ∃ secret, readParts backend curve data = .ok (secret, decoded.publicKey)
          ∧ (0 < secret.length ∧ secret.length ≤ scalarSize)
          ∧ (1 ≤ Bytes.toNat secret ∧ (Bytes.toNat secret : Int) < curve.n)
          ∧ decoded.secret = Bytes.padLeft scalarSize secret := by
  simp only [decode, bind_eq_ok, Prod.exists, ensure_eq_ok, Bool.and_eq_true, decide_eq_true_eq]
  constructor
  · rintro ⟨secret, publicKey, hparts, _, hsize, _, hrange, h⟩
    obtain rfl := Except.ok.inj h
    exact ⟨secret, hparts, hsize, hrange, rfl⟩
  · rintro ⟨secret, hparts, hsize, hrange, hsecret⟩
    refine ⟨secret, decoded.publicKey, hparts, (), hsize, (), hrange, ?_⟩
    rw [← hsecret]

/-- Of a file that was taken apart around a whole scalar, only the range is left to judge. -/
theorem decode_of_readParts {data secret : Bytes} {publicKey : Option Bytes}
    (h : readParts backend curve data = .ok (secret, publicKey))
    (hsecret : secret.length = scalarSize) :
    decode backend curve data
      = if 1 ≤ Bytes.toNat secret ∧ (Bytes.toNat secret : Int) < curve.n then
          .ok ⟨secret, publicKey⟩
        else .error (.decode .secretOutOfRange) := by
  have hsize : (decide (0 < secret.length) && decide (secret.length ≤ scalarSize)) = true := by
    rw [hsecret]
    decide
  have hpad : Bytes.padLeft scalarSize secret = secret := by
    rw [Bytes.padLeft, hsecret, Nat.sub_self, List.replicate_zero, List.nil_append]
  rw [decode, h]
  simp only [bind, Except.bind, ensure, hsize, hpad, if_true, Bool.and_eq_true, decide_eq_true_eq]
  by_cases hrange : 0 < Bytes.toNat secret ∧ (Bytes.toNat secret : Int) < curve.n
  · rw [if_pos hrange]
    exact (if_pos hrange).symm
  · rw [if_neg hrange]
    exact (if_neg hrange).symm

end EcPrivateKey

end SecpKey
