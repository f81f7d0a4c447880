/-
  SecpKey.Proofs.EcPrivateKey.Strict

  What is known of a file that is read as a private key.  `Holds` puts the parts into one
  DER sequence, with the public key wrapped in a way that is left open.  A file that is
  read holds its parts with a bit string that may say to have more bytes than it has
  (`decode_holds`), and it is in strict DER exactly if the bit string is not cut off like
  that.  All the other lengths are right in any case.
-/
import SecpKey.Proofs.Der.Object
import SecpKey.Proofs.EcPrivateKey.Layout
import SecpKey.Backend.Secp256k1

namespace SecpKey

namespace Der

/-! ## Elements have one form -/

theorem encodeElement_append_inj {tag : Tag} {a b rest rest' : Bytes}
    (ha : a.length < lengthLimit) (hb : b.length < lengthLimit)
    (h : encodeElement tag a ++ rest = encodeElement tag b ++ rest') : a = b ∧ rest = rest' := by
  have hread := readElement_encodeElement tag rest ha
  rw [h, readElement_encodeElement tag rest' hb] at hread
  simpa [eq_comm] using hread

theorem encodeLength_inj {m n : Nat} (hm : m < lengthLimit) (hn : n < lengthLimit)
    (h : encodeLength m = encodeLength n) : m = n := by
  have hread := readLength_encodeLength hm []
  rw [h, readLength_encodeLength hn []] at hread
  simpa [eq_comm] using hread

/-- A bit string that says to have what another one has with the same payload is that one. -/
theorem bitString_inj {m n : Nat} {payload : Bytes} (hm : m < lengthLimit) (hn : n < lengthLimit)
    (h : bitString m payload = bitString n payload) : m = n := by
  apply encodeLength_inj hm hn
  exact List.append_cancel_right (List.cons.inj h).2

end Der

namespace EcPrivateKey

variable {P : Type} {backend : Backend P} {curve : Curve} {data : Bytes} {decoded : Decoded}

/-! ## Parts and their order -/

/-- The file is one sequence of version, scalar and optional fields, and nothing else; `wrap`
is what stands in the public key's field. -/
structure Holds (curve : Curve) (wrap : Bytes → Bytes) (data : Bytes) (decoded : Decoded)
    (secret : Bytes) (parameters : Option Bytes) : Prop where
  data_eq : data = Der.encodeSequence
    [Der.encodeInteger keyVersion, Der.encodeOctetString secret,
     Der.optionalField parametersField parameters,
     Der.optionalField publicKeyField (decoded.publicKey.map wrap)]
  /-- DER has a form for every length that occurs. -/
  length_lt : (layout secret parameters (decoded.publicKey.map wrap)).length < Der.lengthLimit
  secret_length : 1 ≤ secret.length ∧ secret.length ≤ 32
  secret_range : 1 ≤ Bytes.toNat secret ∧ (Bytes.toNat secret : Int) < curve.n
  secret_eq : decoded.secret = List.replicate (32 - secret.length) 0 ++ secret
  /-- Parameters that start like an object identifier are the one of the curve. -/
  named : ∀ contents, parameters = some contents → contents.head? = some 0x06 →
    Der.encodeObject curve.oid = .ok contents

/-- The file is strict DER throughout: the public key is a whole bit string as well. -/
def Strict (curve : Curve) (data : Bytes) (decoded : Decoded) : Prop :=
  ∃ secret parameters, Holds curve Der.encodeBitString data decoded secret parameters

theorem encodeSequence_parts (secret : Bytes) (parameters wrapped : Option Bytes) :
    Der.encodeSequence
        [Der.encodeInteger keyVersion, Der.encodeOctetString secret,
         Der.optionalField parametersField parameters,
         Der.optionalField publicKeyField wrapped]
      = Der.encodeElement .sequence (layout secret parameters wrapped) := by
  simp only [Der.encodeSequence, layout, List.flatten_cons, List.flatten_nil, List.append_nil]

/-- The parts of a layout can be told from it. -/
theorem layout_inj {secret secret' : Bytes} {parameters parameters' wrapped wrapped' : Option Bytes}
    (hlen : (layout secret parameters wrapped).length < Der.lengthLimit)
    (h : layout secret parameters wrapped = layout secret' parameters' wrapped') :
    secret = secret' ∧ parameters = parameters' ∧ wrapped = wrapped' := by
  have hlen' := hlen
  rw [h] at hlen'
  obtain ⟨hsecret, hparameters, hwrapped⟩ := lengths_of_layout hlen
  obtain ⟨hsecret', hparameters', hwrapped'⟩ := lengths_of_layout hlen'
  have hbehind := List.append_cancel_left h
  obtain ⟨rfl, hfields⟩ := Der.encodeElement_append_inj hsecret hsecret' hbehind
  -- Reading the fields gives both what was put into them and what was put into the others.
  have hread : ∀ {p w : Option Bytes}, (∀ c, p = some c → c.length < Der.lengthLimit) →
      Der.readField? parametersField
        (Der.optionalField parametersField p ++ Der.optionalField publicKeyField w)
        = .ok (p, Der.optionalField publicKeyField w) := fun {p w} hp =>
    Der.readField?_eq_ok_iff.mpr ⟨rfl, fun _ => head?_publicKeyField_ne w, hp⟩
  have hfirst := hread (w := wrapped) hparameters
  rw [hfields, hread hparameters'] at hfirst
  obtain ⟨rfl, hsecond⟩ := Prod.mk.inj (Except.ok.inj hfirst)
  have hlast : ∀ {w : Option Bytes}, (∀ c, w = some c → c.length < Der.lengthLimit) →
      Der.readField? publicKeyField (Der.optionalField publicKeyField w) = .ok (w, []) := by
    intro w hw
    exact Der.readField?_eq_ok_iff.mpr ⟨by rw [List.append_nil], by simp, hw⟩
  have hfinal := hlast hwrapped
  rw [← hsecond, hlast hwrapped'] at hfinal
  exact ⟨rfl, rfl, (Prod.mk.inj (Except.ok.inj hfinal)).1.symm⟩

/-! ## Files that are read -/

/-- Parameters that start with the tag of an object identifier are the curve's, byte for byte. -/
theorem encodeObject_of_acceptField {parameters : Option Bytes} {contents : Bytes}
    (hacc : acceptField backend curve parameters = .ok ()) (hp : parameters = some contents)
    (htag : contents.head? = some 0x06) : Der.encodeObject curve.oid = .ok contents := by
  subst hp
  have hobject : contents.head? = some Der.Tag.object.byte := htag
  rw [acceptField, accept, if_pos hobject] at hacc
  simp only [acceptNamed, bind_eq_ok, Prod.exists, lift_eq_ok, ensure_eq_ok, beq_iff_eq] at hacc
  obtain ⟨arcs, _, hread, _, rfl, harcs⟩ := hacc
  obtain ⟨written, henc, hcontents⟩ := Der.encodeObject_of_readObject hread
  rw [List.append_nil] at hcontents
  rw [← harcs, hcontents, henc]

/-- A file that is read holds its parts, with parameters that were accepted. -/
theorem decode_holds_accepted (h : decode backend curve data = .ok decoded) :
    ∃ secret parameters declared,
      Holds curve (Der.bitString declared) data decoded secret parameters
        ∧ acceptField backend curve parameters = .ok ()
        ∧ ∀ payload, decoded.publicKey = some payload →
            declared < Der.lengthLimit ∧ payload.length + 1 ≤ declared := by
  obtain ⟨secret, hparts, hsize, hrange, hsecret⟩ := decode_eq_ok_iff.mp h
  obtain ⟨parameters, wrapped, rfl, hlen, hacc, hkey⟩ := readParts_eq_ok_iff.mp hparts
  obtain ⟨declared, rfl, hdeclared⟩ := readPublicKey_eq_ok_iff.mp hkey
  refine ⟨secret, parameters, declared, ⟨?_, hlen, hsize, hrange, hsecret, ?_⟩, hacc, hdeclared⟩
  · rw [encodeSequence_parts]
  · intro contents hp htag
    exact encodeObject_of_acceptField hacc hp htag

/-- A file that is read holds its parts, around a bit string that says no less than it has. -/
theorem decode_holds (h : decode backend curve data = .ok decoded) :
    ∃ secret parameters declared,
      Holds curve (Der.bitString declared) data decoded secret parameters
        ∧ ∀ payload, decoded.publicKey = some payload →
            declared < Der.lengthLimit ∧ payload.length + 1 ≤ declared := by
  obtain ⟨secret, parameters, declared, hholds, -, hdeclared⟩ := decode_holds_accepted h
  exact ⟨secret, parameters, declared, hholds, hdeclared⟩

/-- A file with a bit string in it is strict DER exactly if the bit string says what it has. -/
theorem Holds.strict_iff {secret : Bytes} {parameters : Option Bytes} {declared : Nat}
    (h : Holds curve (Der.bitString declared) data decoded secret parameters)
    (hdeclared : ∀ payload, decoded.publicKey = some payload → declared < Der.lengthLimit) :
    Strict curve data decoded
      ↔ ∀ payload, decoded.publicKey = some payload → declared = payload.length + 1 := by
  have hdata := h.data_eq
  rw [encodeSequence_parts] at hdata
  constructor
  · rintro ⟨secret', parameters', h'⟩ payload hkey
    have hdata' := h'.data_eq
    rw [encodeSequence_parts] at hdata'
    -- Both layouts are in the same sequence, so they have the same contents.
    have hsame : Der.encodeElement .sequence _ ++ [] = Der.encodeElement .sequence _ ++ [] :=
      congrArg (· ++ []) (hdata.symm.trans hdata')
    have hlayout := (Der.encodeElement_append_inj h.length_lt h'.length_lt hsame).1
    obtain ⟨-, -, hwrapped⟩ := layout_inj h.length_lt hlayout
    rw [hkey, Option.map_some, Option.map_some, Der.encodeBitString_eq] at hwrapped
    have hcontents := (lengths_of_layout h.length_lt).2.2 (Der.bitString declared payload)
      (by rw [hkey, Option.map_some])
    have hpayload : payload.length + 1 < Der.lengthLimit := by
      simp only [Der.bitString, List.length_cons, List.length_append] at hcontents
      omega
    exact Der.bitString_inj (hdeclared payload hkey) hpayload (Option.some.inj hwrapped)
  · intro hwhole
    have hmap : decoded.publicKey.map (Der.bitString declared)
        = decoded.publicKey.map Der.encodeBitString := by
      cases hkey : decoded.publicKey with
      | none => rfl
      | some payload => rw [Option.map_some, Option.map_some, hwhole payload hkey,
          Der.encodeBitString_eq]
    have hlen := h.length_lt
    rw [hmap] at hlen hdata
    refine ⟨secret, parameters, ?_, hlen, h.secret_length, h.secret_range, h.secret_eq, h.named⟩
    rw [encodeSequence_parts]
    exact hdata

/-- Whatever is read holds its parts in their order and nothing else, and is strict DER
exactly if the public key's bit string, if there is one, has all the bytes it says to have. -/
theorem decode_strict_iff_whole (h : decode backend curve data = .ok decoded) :
    ∃ secret parameters declared,
      Holds curve (Der.bitString declared) data decoded secret parameters
        ∧ (∀ payload, decoded.publicKey = some payload → payload.length + 1 ≤ declared)
        ∧ (Strict curve data decoded
            ↔ ∀ payload, decoded.publicKey = some payload → declared = payload.length + 1) := by
  obtain ⟨secret, parameters, declared, hholds, hdeclared⟩ := decode_holds h
  refine ⟨secret, parameters, declared, hholds, ?_, ?_⟩
  · intro payload hkey
    exact (hdeclared payload hkey).2
  · apply hholds.strict_iff
    intro payload hkey
    exact (hdeclared payload hkey).1

/-- The scalar one, with a public key of one byte. -/
def smallKey : Decoded := ⟨Bytes.padLeft scalarSize [1], some [0x04]⟩

/-- `smallKey` with the name of the curve, and with all of the bit string. -/
def wholeFile : Bytes :=
  [0x30, 0x15, 0x02, 0x01, 0x01, 0x04, 0x01, 0x01, 0xA0, 0x07, 0x06, 0x05, 0x2B, 0x81, 0x04, 0x00,
   0x0A, 0xA1, 0x04, 0x03, 0x02, 0x00, 0x04]

theorem decode_strict_iff_whole_named :
    decode Backend.secp256k1 .secp256k1 wholeFile = .ok smallKey
      ∧ ∃ secret parameters declared,
          Holds .secp256k1 (Der.bitString declared) wholeFile smallKey secret parameters
            ∧ (∀ payload, smallKey.publicKey = some payload → payload.length + 1 ≤ declared)
            ∧ (Strict .secp256k1 wholeFile smallKey
                ↔ ∀ payload, smallKey.publicKey = some payload →
                    declared = payload.length + 1) :=
  have h : decode Backend.secp256k1 .secp256k1 wholeFile = .ok smallKey := by decide +kernel
  ⟨h, decode_strict_iff_whole h⟩

/-- `smallKey` with a bit string that says to have five bytes, of which two are there. -/
def truncatedFile : Bytes :=
  [0x30, 0x0C, 0x02, 0x01, 0x01, 0x04, 0x01, 0x01, 0xA1, 0x04, 0x03, 0x05, 0x00, 0x04]

/-- A file that is read although its bit string is cut off. -/
theorem decode_truncated :
    decode Backend.secp256k1 .secp256k1 truncatedFile = .ok smallKey
      ∧ ¬ Strict .secp256k1 truncatedFile smallKey := by
  have hread : decode Backend.secp256k1 .secp256k1 truncatedFile = .ok smallKey := by
    decide +kernel
  have hholds : Holds .secp256k1 (Der.bitString 5) truncatedFile smallKey [1] none := by
    constructor
    · decide
    · decide
    · decide
    · decide
    · rfl
    · rintro _ ⟨⟩
  refine ⟨hread, ?_⟩
  rw [hholds.strict_iff (fun _ _ => by decide)]
  intro hwhole
  have hfive := hwhole [0x04] rfl
  simp at hfive

end EcPrivateKey

end SecpKey
