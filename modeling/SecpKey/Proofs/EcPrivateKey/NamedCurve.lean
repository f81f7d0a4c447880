/-
  SecpKey.Proofs.EcPrivateKey.NamedCurve

  Explicit parameters stand for the name of the curve they describe.  A file is judged by its
  parameters first and then by everything else, without another look at them
  (`exists_decode_withParameters`).  So a file with parameters that describe the curve comes to
  what the same file with the name comes to, be it a key or a refusal, and a file with any
  others is refused.
-/
import SecpKey.Proofs.EcPrivateKey.Complete
import SecpKey.Proofs.EcPrivateKey.Explicit
import SecpKey.Proofs.EcPrivateKey.Refusal
import SecpKey.Proofs.Failure

namespace SecpKey.EcPrivateKey

variable {P : Type} {backend : Backend P} {curve : Curve}

/-! ## Files with parameters -/

/-- A scalar and parameters, with anything at all behind them. -/
def withParameters (secret parameters behind : Bytes) : Bytes :=
  Der.encodeSequence
    [Der.encodeInteger keyVersion, Der.encodeOctetString secret,
     Der.encodeField parametersField parameters, behind]

theorem withParameters_eq (secret parameters behind : Bytes) :
    withParameters secret parameters behind
      = Der.encodeElement .sequence (Der.encodeInteger keyVersion
          ++ (Der.encodeOctetString secret
            ++ (Der.encodeField parametersField parameters ++ behind))) := by
  simp only [withParameters, Der.encodeSequence, List.flatten_cons, List.flatten_nil,
    List.append_nil]

/-- The parameters are shorter than the file around them, and so is the scalar. -/
theorem lengths_of_withParameters (secret parameters behind : Bytes) :
    secret.length < (withParameters secret parameters behind).length
      ∧ parameters.length < (withParameters secret parameters behind).length := by
  have hoctets := Der.length_lt_encodeElement .octetString secret
  have hfield := Der.length_lt_encodeElement (.field parametersField) parameters
  have hbody := Der.length_lt_encodeElement .sequence (Der.encodeInteger keyVersion
    ++ (Der.encodeOctetString secret ++ (Der.encodeField parametersField parameters ++ behind)))
  rw [← Der.encodeOctetString] at hoctets
  rw [← Der.encodeField] at hfield
  rw [withParameters_eq]
  simp only [List.length_append] at hbody
  omega

/-- What is left to judge of a file once its parameters are accepted. -/
def judge (curve : Curve) (secret behind : Bytes) : Except Failure Decoded := do
  let (wrapped, behind) ← lift (Der.readField? publicKeyField behind)
  let publicKey ← readPublicKey wrapped
  ensure (behind == []) .unexpectedField
  ensure (0 < secret.length && secret.length ≤ scalarSize) (.secretSize secret.length)
  ensure (0 < Bytes.toNat secret && (Bytes.toNat secret : Int) < curve.n) .secretOutOfRange
  .ok { secret := Bytes.padLeft scalarSize secret, publicKey := publicKey }

/-- A file is judged by its parameters first, and then without them. -/
theorem decode_withParameters {secret parameters behind : Bytes}
    (hlen : (withParameters secret parameters behind).length < Der.lengthLimit) :
    decode backend curve (withParameters secret parameters behind)
      = acceptField backend curve (some parameters) >>= fun _ => judge curve secret behind := by
  obtain ⟨hsecretlen, hparameterslen⟩ := lengths_of_withParameters secret parameters behind
  rw [withParameters_eq] at hlen hsecretlen hparameterslen ⊢
  set body := Der.encodeInteger keyVersion ++ (Der.encodeOctetString secret
    ++ (Der.encodeField parametersField parameters ++ behind))
  -- The readers up to the parameters succeed, whatever the parameters are.
  have hsequence : Der.readElement .sequence (Der.encodeElement .sequence body ++ []) = _ :=
    Der.readElement_encodeElement .sequence []
      ((Der.length_lt_encodeElement .sequence body).trans hlen)
  rw [List.append_nil] at hsequence
  have hversion : Der.readInteger body = .ok (keyVersion, _) :=
    Der.readInteger_eq_ok_iff.mpr ⟨rfl, by decide⟩
  have hsecret : Der.readElement .octetString (Der.encodeOctetString secret
      ++ (Der.encodeField parametersField parameters ++ behind)) = .ok (secret, _) :=
    Der.readElement_encodeElement .octetString _ (hsecretlen.trans hlen)
  have hparameters : Der.readField? parametersField
      (Der.encodeField parametersField parameters ++ behind) = .ok (some parameters, behind) := by
    refine Der.readField?_eq_ok_iff.mpr ⟨rfl, by simp, ?_⟩
    rintro _ ⟨⟩
    exact hparameterslen.trans hlen
  have hpass : ∀ cause, ensure true cause = .ok () := fun _ => rfl
  simp only [decode, readParts, judge, Der.readSequence, Der.readOctetString, hsequence, hversion,
    hsecret, hparameters, lift, Except.mapError, bind, Except.bind, beq_self_eq_true, hpass]
  cases acceptField backend curve (some parameters) with
  | error e => rfl
  | ok _ =>
      cases Der.readField? publicKeyField behind with
      | error fault => rfl
      | ok field =>
          dsimp only
          cases readPublicKey field.1 with
          | error e => rfl
          | ok publicKey =>
              dsimp only
              cases ensure (field.2 == []) .unexpectedField with
              | error e => rfl
              | ok _ => rfl

/-! ## Parameters written out -/

/-- Parameters that are written out are accepted exactly if they describe the curve. -/
theorem acceptField_bytes_iff {form : ExplicitForm} (hlen : form.bytes.length < Der.lengthLimit) :
    acceptField backend curve (some form.bytes) = .ok () ↔ form.Describes backend curve := by
  have hhead : form.bytes.head? ≠ some Der.Tag.object.byte := by
    rw [form.bytes_eq, Der.encodeElement, List.head?_cons]
    decide
  rw [acceptField, accept, if_neg hhead, acceptExplicit_eq_ok_iff]
  constructor
  · rintro ⟨form', hbytes, -, hdescribes⟩
    rwa [ExplicitForm.bytes_inj hlen hbytes]
  · intro hdescribes
    refine ⟨form, rfl, ?_, hdescribes⟩
    rw [form.bytes_eq] at hlen
    exact (Der.length_lt_encodeElement .sequence form.contents).trans hlen

/-- Parameters are accepted, or the file around them is refused. -/
theorem decode_of_not_accepted {secret parameters behind : Bytes}
    (hlen : (withParameters secret parameters behind).length < Der.lengthLimit)
    (hacc : acceptField backend curve (some parameters) ≠ .ok ()) :
    ∃ cause, decode backend curve (withParameters secret parameters behind)
      = .error (.decode cause) := by
  rw [decode_withParameters hlen]
  cases h : acceptField backend curve (some parameters) with
  | ok _ => exact absurd h hacc
  | error e =>
      obtain ⟨cause, rfl⟩ :=
        Failure.exists_decode (refuses_acceptField backend curve (some parameters) e h)
      exact ⟨cause, rfl⟩

/-- Parameters that are written out mean what the name of the curve means, and no other curve
gets in. -/
structure StandsForName (backend : Backend P) (curve : Curve) (oid : Bytes) : Prop where
  /-- Whatever was accepted and does not start like a name was read as the curve's numbers, and
  with a form of its generator. -/
  sound : ∀ data decoded, decode backend curve data = .ok decoded →
    ∃ secret parameters declared,
      Holds curve (Der.bitString declared) data decoded secret parameters
        ∧ ∀ explicit, parameters = some explicit → explicit.head? ≠ some 0x06 →
            ∃ form : ExplicitForm, explicit = form.bytes
              ∧ Explicit.read explicit = .ok form.numbers ∧ form.Describes backend curve
  /-- With the curve written out a file comes to what it comes to with the name: the coefficients
  may have any zeros in front and the generator any form that is read, and what stands behind the
  coefficients and behind the order makes no difference. -/
  same : ∀ (form : ExplicitForm) (secret behind : Bytes), form.Describes backend curve →
    (withParameters secret form.bytes behind).length < Der.lengthLimit →
    (withParameters secret oid behind).length < Der.lengthLimit →
      decode backend curve (withParameters secret form.bytes behind)
        = decode backend curve (withParameters secret oid behind)
  /-- With another prime, coefficient, order or generator it is refused. -/
  refused : ∀ (form : ExplicitForm) (secret behind : Bytes), ¬ form.Describes backend curve →
    (withParameters secret form.bytes behind).length < Der.lengthLimit →
      ∃ cause, decode backend curve (withParameters secret form.bytes behind)
        = .error (.decode cause)

theorem explicit_stands_for_name {oid : Bytes} (backend : Backend P)
    (hoid : Der.encodeObject curve.oid = .ok oid) : StandsForName backend curve oid where
  sound data decoded h := by
    obtain ⟨secret, parameters, declared, hholds, hacc, -⟩ := decode_holds_accepted h
    refine ⟨secret, parameters, declared, hholds, ?_⟩
    rintro explicit rfl htag
    have hobject : explicit.head? ≠ some Der.Tag.object.byte := htag
    rw [acceptField, accept, if_neg hobject] at hacc
    obtain ⟨form, rfl, hlen, hdescribes⟩ := acceptExplicit_eq_ok_iff.mp hacc
    exact ⟨form, rfl, read_eq_ok_iff.mpr ⟨form, rfl, hlen, rfl⟩, hdescribes⟩
  same form secret behind hdescribes hlen hlen' := by
    have hbytes := (lengths_of_withParameters secret form.bytes behind).2.trans hlen
    have hname := (lengths_of_withParameters secret oid behind).2.trans hlen'
    rw [decode_withParameters hlen, decode_withParameters hlen',
      (acceptField_bytes_iff hbytes).mpr hdescribes, acceptField_named hoid hname]
  refused form secret behind hnot hlen := by
    have hbytes := (lengths_of_withParameters secret form.bytes behind).2.trans hlen
    exact decode_of_not_accepted hlen fun hacc => hnot ((acceptField_bytes_iff hbytes).mp hacc)

/-- secp256k1 with an empty coefficient, zeros in front of the other one, a seed, and its
generator with both coordinates and their parity. -/
def variedForm : ExplicitForm :=
  { prime := fieldPrime, a := [], b := [0, 0, 7],
    generator := 0x06 :: (Bytes.ofNat scalarSize generatorX ++ Bytes.ofNat scalarSize generatorY),
    order := groupOrder, afterPrime := [],
    afterCoefficients := Der.encodeBitString [0x73, 0x65, 0x65, 0x64], afterOrder := [] }

theorem variedForm_describes : variedForm.Describes Backend.secp256k1 .secp256k1 where
  prime := rfl
  a := rfl
  b := rfl
  generator := ⟨.generator, by decide +kernel⟩
  order := rfl

/-- The name of secp256k1, as it is written. -/
def writtenName : Bytes := [0x06, 0x05, 0x2B, 0x81, 0x04, 0x00, 0x0A]

/-- The scalar one, as it is read from a file without a public key. -/
def decodedOne : Decoded := { secret := Bytes.ofNat scalarSize 1, publicKey := none }

theorem explicit_stands_for_name_varied :
    Der.encodeObject Curve.secp256k1.oid = .ok writtenName
      ∧ StandsForName Backend.secp256k1 .secp256k1 writtenName
      ∧ decode Backend.secp256k1 .secp256k1 (withParameters [1] writtenName []) = .ok decodedOne
      ∧ decode Backend.secp256k1 .secp256k1 (withParameters [1] variedForm.bytes [])
        = .ok decodedOne := by
  have hname : Der.encodeObject Curve.secp256k1.oid = .ok writtenName := by decide +kernel
  have hstands := explicit_stands_for_name Backend.secp256k1 hname
  have hnamed : decode Backend.secp256k1 .secp256k1 (withParameters [1] writtenName [])
      = .ok decodedOne := by
    decide +kernel
  refine ⟨hname, hstands, hnamed, ?_⟩
  rw [← hnamed]
  exact hstands.same variedForm [1] [] variedForm_describes (by decide +kernel) (by decide +kernel)

end SecpKey.EcPrivateKey
