/-
  SecpKey.Proofs.EcPrivateKey.Explicit

  Explicit curve parameters.  `ExplicitForm` is what they are made of: the numbers of a
  curve in their order, and whatever stands behind the prime, behind the coefficients and
  behind the order.  `acceptExplicit_eq_ok_iff` says which are accepted: those whose numbers
  are the curve's, with anything at all in these three places.  So parameters that are
  accepted describe the curve, and they are exactly its description if in these places
  there is nothing but a seed and the cofactor (`exact_bytes_iff`).
-/
import SecpKey.Proofs.EcPrivateKey.Strict

namespace SecpKey.EcPrivateKey

variable {P : Type} {backend : Backend P} {curve : Curve}

/-! ## The field -/

/-- The object identifier of prime fields, as it is written. -/
def primeField : Bytes := [0x06, 0x07, 0x2A, 0x86, 0x48, 0xCE, 0x3D, 0x01, 0x01]

theorem encodeObject_primeFieldOid :
    Der.encodeObject (primeFieldOid.map Int.ofNat) = .ok primeField := by
  decide +kernel

theorem readObject_primeField_iff {input rest : Bytes} :
    Der.readObject input = .ok (primeFieldOid, rest) ↔ input = primeField ++ rest := by
  constructor
  · intro h
    obtain ⟨written, hwritten, rfl⟩ := Der.encodeObject_of_readObject h
    rw [encodeObject_primeFieldOid] at hwritten
    rw [Except.ok.inj hwritten]
  · rintro rfl
    obtain ⟨numbers, hread, hnumbers⟩ :=
      Der.readObject_of_encodeObject encodeObject_primeFieldOid (by decide) rest
    rw [hread, (List.map_inj_right fun _ _ => Int.ofNat.inj).mp hnumbers]

/-! ## Written parameters -/

/-- What explicit parameters are made of. -/
structure ExplicitForm where
  prime : Nat
  a : Bytes
  b : Bytes
  generator : Bytes
  order : Nat
  /-- What stands behind the prime in the sequence of the field. -/
  afterPrime : Bytes
  /-- What stands behind the second coefficient in the sequence of the curve. -/
  afterCoefficients : Bytes
  /-- What stands behind the order at the end of the parameters. -/
  afterOrder : Bytes

namespace ExplicitForm

def field (form : ExplicitForm) : Bytes :=
  primeField ++ (Der.encodeInteger form.prime ++ form.afterPrime)

def coefficients (form : ExplicitForm) : Bytes :=
  Der.encodeOctetString form.a ++ (Der.encodeOctetString form.b ++ form.afterCoefficients)

/-- The contents of the sequence around everything. -/
def contents (form : ExplicitForm) : Bytes :=
  Der.encodeInteger parametersVersion ++ (Der.encodeElement .sequence form.field
    ++ (Der.encodeElement .sequence form.coefficients ++ (Der.encodeOctetString form.generator
      ++ (Der.encodeInteger form.order ++ form.afterOrder))))

/-- The parameters as they are written. -/
def bytes (form : ExplicitForm) : Bytes :=
  Der.encodeSequence
    [Der.encodeInteger parametersVersion,
     Der.encodeSequence [primeField, Der.encodeInteger form.prime, form.afterPrime],
     Der.encodeSequence
       [Der.encodeOctetString form.a, Der.encodeOctetString form.b, form.afterCoefficients],
     Der.encodeOctetString form.generator,
     Der.encodeInteger form.order,
     form.afterOrder]

/-- The numbers that are compared with the curve. -/
def numbers (form : ExplicitForm) : Explicit :=
  { p := form.prime, a := Bytes.toNat form.a, b := Bytes.toNat form.b,
    generator := form.generator, n := form.order }

theorem bytes_eq (form : ExplicitForm) :
    form.bytes = Der.encodeElement .sequence form.contents := by
  simp only [bytes, contents, field, coefficients, Der.encodeSequence, List.flatten_cons,
    List.flatten_nil, List.append_nil]

/-- Every part is shorter than the whole. -/
theorem lengths_of_contents {form : ExplicitForm} (h : form.contents.length < Der.lengthLimit) :
    (form.field.length < Der.lengthLimit
        ∧ (Der.integerContents form.prime).length < Der.lengthLimit)
      ∧ (form.coefficients.length < Der.lengthLimit
        ∧ form.a.length < Der.lengthLimit ∧ form.b.length < Der.lengthLimit)
      ∧ form.generator.length < Der.lengthLimit
      ∧ (Der.integerContents form.order).length < Der.lengthLimit := by
  have hfield := Der.length_lt_encodeElement .sequence form.field
  have hprime := Der.length_lt_encodeElement .integer (Der.integerContents form.prime)
  have hcoefficients := Der.length_lt_encodeElement .sequence form.coefficients
  have ha := Der.length_lt_encodeElement .octetString form.a
  have hb := Der.length_lt_encodeElement .octetString form.b
  have hgenerator := Der.length_lt_encodeElement .octetString form.generator
  have horder := Der.length_lt_encodeElement .integer (Der.integerContents form.order)
  have hfieldparts : (Der.encodeInteger form.prime).length ≤ form.field.length := by
    simp only [field, List.length_append]
    omega
  have hcoefficientparts : (Der.encodeOctetString form.a).length
      + (Der.encodeOctetString form.b).length ≤ form.coefficients.length := by
    simp only [coefficients, List.length_append]
    omega
  simp only [contents, List.length_append] at h
  rw [← Der.encodeInteger] at hprime horder
  rw [← Der.encodeOctetString] at ha hb hgenerator
  omega

/-- The parts of written parameters can be told from them. -/
theorem bytes_inj {form form' : ExplicitForm} (hlen : form.bytes.length < Der.lengthLimit)
    (h : form.bytes = form'.bytes) : form = form' := by
  have hlen' := hlen
  rw [h] at hlen'
  rw [bytes_eq] at h hlen
  rw [bytes_eq] at h hlen'
  have hfits := (Der.length_lt_encodeElement .sequence form.contents).trans hlen
  have hfits' := (Der.length_lt_encodeElement .sequence form'.contents).trans hlen'
  obtain ⟨⟨hf, hp⟩, ⟨hc, ha, hb⟩, hg, hn⟩ := lengths_of_contents hfits
  obtain ⟨⟨hf', hp'⟩, ⟨hc', ha', hb'⟩, hg', hn'⟩ := lengths_of_contents hfits'
  have hvalue : ∀ {m n : Nat}, Der.integerContents m = Der.integerContents n → m = n := by
    intro m n hmn
    have hm := Der.integerValue_integerContents m
    rw [hmn, Der.integerValue_integerContents] at hm
    exact (Except.ok.inj hm).symm
  -- Element by element, from the outside in and from the left to the right.
  have hcontents := (Der.encodeElement_append_inj hfits hfits' (congrArg (· ++ []) h)).1
  obtain ⟨hfield, hbody⟩ := Der.encodeElement_append_inj hf hf'
    (List.append_cancel_left hcontents)
  obtain ⟨hcoefficients, hbody⟩ := Der.encodeElement_append_inj hc hc' hbody
  obtain ⟨hgenerator, hbody⟩ := Der.encodeElement_append_inj hg hg' hbody
  obtain ⟨horder, hafterOrder⟩ := Der.encodeElement_append_inj hn hn' hbody
  obtain ⟨hprime, hafterPrime⟩ := Der.encodeElement_append_inj hp hp'
    (List.append_cancel_left hfield)
  obtain ⟨hfirst, hbody⟩ := Der.encodeElement_append_inj ha ha' hcoefficients
  obtain ⟨hsecond, hafterCoefficients⟩ := Der.encodeElement_append_inj hb hb' hbody
  cases form
  cases form'
  obtain rfl := hvalue hprime
  obtain rfl := hvalue horder
  simp_all only

end ExplicitForm

/-! ## Reading -/

/-- Explicit parameters are read from their written form only, and from every written form,
whatever stands in the three places. -/
theorem read_eq_ok_iff {parameters : Bytes} {numbers : Explicit} :
    Explicit.read parameters = .ok numbers
      ↔ ∃ form : ExplicitForm, parameters = form.bytes
          ∧ form.contents.length < Der.lengthLimit ∧ numbers = form.numbers := by
  simp only [Explicit.read, bind_eq_ok, Prod.exists, lift_eq_ok, ensure_eq_ok, beq_iff_eq,
    Der.readSequence, Der.readOctetString, Der.readElement_eq_ok_iff, Der.readInteger_eq_ok_iff]
  constructor
  · rintro ⟨body, _, ⟨rfl, hlen⟩, _, rfl, _, body, ⟨rfl, -⟩, _, rfl, field, body, ⟨rfl, -⟩,
      _, field, hfield, _, rfl, prime, afterPrime, ⟨rfl, -⟩, coefficients, body, ⟨rfl, -⟩,
      a, coefficients, ⟨rfl, -⟩, b, afterCoefficients, ⟨rfl, -⟩, generator, body, ⟨rfl, -⟩,
      order, afterOrder, ⟨rfl, -⟩, h⟩
    rw [readObject_primeField_iff] at hfield
    subst hfield
    refine ⟨⟨prime, a, b, generator, order, afterPrime, afterCoefficients, afterOrder⟩,
      ?_, hlen, (Except.ok.inj h).symm⟩
    rw [ExplicitForm.bytes_eq, List.append_nil]
    rfl
  · rintro ⟨form, rfl, hlen, rfl⟩
    obtain ⟨⟨hf, hp⟩, ⟨hc, ha, hb⟩, hg, hn⟩ := ExplicitForm.lengths_of_contents hlen
    have hversion : (Der.integerContents parametersVersion).length < Der.lengthLimit := by decide
    refine ⟨_, [], ⟨?_, hlen⟩, (), rfl, parametersVersion, _, ⟨rfl, hversion⟩, (), rfl,
      form.field, _, ⟨rfl, hf⟩, primeFieldOid, _, readObject_primeField_iff.mpr rfl, (), rfl,
      form.prime, form.afterPrime, ⟨rfl, hp⟩, form.coefficients, _, ⟨rfl, hc⟩,
      form.a, _, ⟨rfl, ha⟩, form.b, form.afterCoefficients, ⟨rfl, hb⟩,
      form.generator, _, ⟨rfl, hg⟩, form.order, form.afterOrder, ⟨rfl, hn⟩, rfl⟩
    rw [ExplicitForm.bytes_eq, List.append_nil]

namespace ExplicitForm

/-- The numbers are those of the curve, and the generator is a form of its generator. -/
structure Describes (form : ExplicitForm) (backend : Backend P) (curve : Curve) : Prop where
  prime : (form.prime : Int) = curve.p
  a : (Bytes.toNat form.a : Int) = curve.a
  b : (Bytes.toNat form.b : Int) = curve.b
  generator : ∃ point, backend.parse? form.generator = some point
    ∧ (((backend.coordinates point).1 : Int), ((backend.coordinates point).2 : Int))
        = curve.generator
  order : (form.order : Int) = curve.n

/-- A bit string, with any number of unused bits that a byte can have. -/
def IsSeed (bytes : Bytes) : Prop :=
  ∃ unused payload, unused ≤ 7 ∧ bytes = Der.encodeElement .bitString (unused :: payload)

/-- There is nothing behind the prime, at most a seed behind the coefficients and at most the
cofactor behind the order. -/
structure Whole (form : ExplicitForm) (curve : Curve) : Prop where
  afterPrime : form.afterPrime = []
  afterCoefficients : form.afterCoefficients = [] ∨ IsSeed form.afterCoefficients
  afterOrder : form.afterOrder = [] ∨ form.afterOrder = Der.encodeInteger curve.h.toNat

end ExplicitForm

/-- Explicit parameters are accepted exactly if they describe the curve. -/
theorem acceptExplicit_eq_ok_iff {parameters : Bytes} :
    acceptExplicit backend curve parameters = .ok ()
      ↔ ∃ form : ExplicitForm, parameters = form.bytes
          ∧ form.contents.length < Der.lengthLimit ∧ form.Describes backend curve := by
  have hcheck : ∀ e : Explicit, e.numbersMatch curve = true
      ↔ (e.p : Int) = curve.p ∧ (e.a : Int) = curve.a ∧ (e.b : Int) = curve.b
        ∧ (e.n : Int) = curve.n := by
    intro e
    simp only [Explicit.numbersMatch, Bool.and_eq_true, beq_iff_eq, and_assoc]
  simp only [acceptExplicit, bind_eq_ok, ensure_eq_ok, read_eq_ok_iff, hcheck]
  constructor
  · rintro ⟨_, ⟨form, rfl, hlen, rfl⟩, _, ⟨hp, ha, hb, hn⟩, h⟩
    split at h
    · simp at h
    next point hparse =>
    rw [ensure_eq_ok, beq_iff_eq] at h
    exact ⟨form, rfl, hlen, hp, ha, hb, ⟨point, hparse, h⟩, hn⟩
  · rintro ⟨form, rfl, hlen, hp, ha, hb, ⟨point, hparse, hpoint⟩, hn⟩
    refine ⟨form.numbers, ⟨form, rfl, hlen, rfl⟩, (), ⟨hp, ha, hb, hn⟩, ?_⟩
    rw [show form.numbers.generator = form.generator from rfl, hparse]
    exact ensure_eq_ok.mpr (beq_iff_eq.mpr hpoint)

/-! ## Nothing but the curve -/

/-- The parameters are the curve written out and nothing else. -/
def Exact (backend : Backend P) (curve : Curve) (parameters : Bytes) : Prop :=
  ∃ form : ExplicitForm, parameters = form.bytes
    ∧ form.Describes backend curve ∧ form.Whole curve

/-- Whether there is nothing else shows in the three places alone. -/
theorem exact_bytes_iff {form : ExplicitForm} (hlen : form.bytes.length < Der.lengthLimit)
    (hdescribes : form.Describes backend curve) :
    Exact backend curve form.bytes ↔ form.Whole curve := by
  constructor
  · rintro ⟨form', hbytes, -, hwhole⟩
    rwa [ExplicitForm.bytes_inj hlen hbytes]
  · intro hwhole
    exact ⟨form, rfl, hdescribes, hwhole⟩

/-- Parameters in an accepted file that do not start like a name describe the curve; they are
exactly its description if nothing else stands in the three places. -/
theorem decode_exact_iff_nothing_behind {data : Bytes} {decoded : Decoded}
    (h : decode backend curve data = .ok decoded) :
    ∃ secret parameters declared,
      Holds curve (Der.bitString declared) data decoded secret parameters
        ∧ ∀ explicit, parameters = some explicit → explicit.head? ≠ some 0x06 →
            ∃ form : ExplicitForm, explicit = form.bytes ∧ form.Describes backend curve
              ∧ (Exact backend curve explicit ↔ form.Whole curve) := by
  obtain ⟨secret, parameters, declared, hholds, hacc, -⟩ := decode_holds_accepted h
  refine ⟨secret, parameters, declared, hholds, ?_⟩
  rintro explicit rfl htag
  have hobject : explicit.head? ≠ some Der.Tag.object.byte := htag
  rw [acceptField, accept, if_neg hobject] at hacc
  obtain ⟨form, rfl, -, hdescribes⟩ := acceptExplicit_eq_ok_iff.mp hacc
  have hlen := (lengths_of_layout hholds.length_lt).2.1 _ rfl
  exact ⟨form, rfl, hdescribes, exact_bytes_iff hlen hdescribes⟩

/-- secp256k1 with its generator uncompressed and its cofactor. -/
def plainForm : ExplicitForm :=
  { prime := fieldPrime, a := [0], b := [7],
    generator := 0x04 :: (Bytes.ofNat scalarSize generatorX ++ Bytes.ofNat scalarSize generatorY),
    order := groupOrder, afterPrime := [], afterCoefficients := [],
    afterOrder := Der.encodeInteger 1 }

/-- The scalar one, without a public key, behind explicit parameters. -/
def explicitFile (form : ExplicitForm) : Bytes :=
  Der.encodeSequence
    [Der.encodeInteger keyVersion, Der.encodeOctetString [1],
     Der.encodeField parametersField form.bytes]

/-- What is read from an `explicitFile`. -/
def scalarOne : Decoded := ⟨Bytes.padLeft scalarSize [1], none⟩

theorem decode_exact_iff_nothing_behind_plain :
    decode Backend.secp256k1 .secp256k1 (explicitFile plainForm) = .ok scalarOne
      ∧ ∃ secret parameters declared,
          Holds .secp256k1 (Der.bitString declared) (explicitFile plainForm) scalarOne secret
              parameters
            ∧ ∀ explicit, parameters = some explicit → explicit.head? ≠ some 0x06 →
                ∃ form : ExplicitForm, explicit = form.bytes
                  ∧ form.Describes Backend.secp256k1 .secp256k1
                  ∧ (Exact Backend.secp256k1 .secp256k1 explicit ↔ form.Whole .secp256k1) :=
  have h : decode Backend.secp256k1 .secp256k1 (explicitFile plainForm) = .ok scalarOne := by
    decide +kernel
  ⟨h, decode_exact_iff_nothing_behind h⟩

/-- `plainForm` with a null element behind the prime, with two more behind the coefficients
and with a cofactor of two. -/
def strayForm : ExplicitForm :=
  { plainForm with
    afterPrime := [0x05, 0x00], afterCoefficients := [0x05, 0x00, 0x05, 0x00],
    afterOrder := Der.encodeInteger 2 }

/-- A file that is read although its parameters are not exactly the curve. -/
theorem decode_stray :
    decode Backend.secp256k1 .secp256k1 (explicitFile strayForm) = .ok scalarOne
      ∧ ¬ Exact Backend.secp256k1 .secp256k1 strayForm.bytes := by
  have hread : decode Backend.secp256k1 .secp256k1 (explicitFile strayForm) = .ok scalarOne := by
    decide +kernel
  refine ⟨hread, ?_⟩
  rintro ⟨form, hbytes, -, hwhole⟩
  have hlen : strayForm.bytes.length < Der.lengthLimit := by decide +kernel
  rw [← ExplicitForm.bytes_inj hlen hbytes] at hwhole
  have hstray : ([0x05, 0x00] : Bytes) = [] := hwhole.afterPrime
  simp at hstray

end SecpKey.EcPrivateKey
