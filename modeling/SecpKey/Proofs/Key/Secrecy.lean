/-
  SecpKey.Proofs.Key.Secrecy

  Errors and representations do not tell the scalar.  What a key reports depends on the class
  of its scalar (`ScalarClass`), on its point and on its form: of keys that are alike in these
  (`Material.Similar`) either both are read, written, sign and are regenerated, or both fail
  with the same failure, and they are shown alike.  Nor does the report of a private key that
  is not imported tell more of its scalar than whether it is in range (`ofDer_error_eq`).
-/
import SecpKey.Proofs.EcPrivateKey.Secrecy
import SecpKey.Proofs.Key.Export
import SecpKey.Proofs.Key.Material

namespace SecpKey

variable {P : Type} {backend : Backend P}

/-! ## What is asked of the backend -/

/-- The backend takes the scalars in range and no others, and tells points by their
coordinates. -/
structure Dependable (backend : Backend P) : Prop where
  admits_iff : ∀ {d : Nat}, backend.admits d = true ↔ 1 ≤ d ∧ d < groupOrder
  ofScalar : ∀ {d : Nat}, 1 ≤ d ∧ d < groupOrder → ∃ Q, backend.ofScalar d = .ok Q
  coordinates : ∀ {Q R : P}, Given backend Q → Given backend R →
    backend.coordinates Q = backend.coordinates R → Q = R

theorem dependable_secp256k1 : Dependable Backend.secp256k1 where
  admits_iff := isValidScalar_natCast
  ofScalar hd := by
    obtain ⟨Q, hQ, -⟩ := exists_publicPoint_secp256k1 hd
    exact ⟨Q, hQ.ofScalar⟩
  coordinates := toldApart_secp256k1.coordinates

/-! ## Classes of scalars -/

/-- How a scalar is dealt with. -/
inductive ScalarClass where
  /-- In `[1, n-1]`, as every use of it requires. -/
  | inRange
  /-- Zero, or from the group order on, in no more than 32 bytes. -/
  | outOfRange
  /-- Too large for 32 bytes. -/
  | tooLarge
  deriving DecidableEq, Repr

def ScalarClass.of (d : Nat) : ScalarClass :=
  if 2 ^ 256 ≤ d then .tooLarge
  else if 1 ≤ d ∧ d < groupOrder then .inRange
  else .outOfRange

namespace ScalarClass

variable {d d' : Nat}

theorem of_eq_inRange_iff : of d = .inRange ↔ 1 ≤ d ∧ d < groupOrder := by
  have hn : groupOrder < 2 ^ 256 := by decide
  rw [of]
  split
  · constructor
    · rintro ⟨⟩
    · omega
  split
  · next h => simp only [h, and_self]
  · next h => simp only [h, reduceCtorEq]

theorem of_eq_tooLarge_iff : of d = .tooLarge ↔ 256 ^ scalarSize ≤ d := by
  rw [of, show 256 ^ scalarSize = 2 ^ 256 by decide]
  split
  · next h => simp only [h]
  · next h =>
    simp only [h, iff_false]
    split
    · rintro ⟨⟩
    · rintro ⟨⟩

/-- Scalars of one class are in range together, -/
theorem range_congr (h : of d = of d') :
    (1 ≤ d ∧ d < groupOrder) ↔ 1 ≤ d' ∧ d' < groupOrder := by
  rw [← of_eq_inRange_iff, ← of_eq_inRange_iff, h]

/-- and fit 32 bytes together. -/
theorem fits_congr (h : of d = of d') : d < 256 ^ scalarSize ↔ d' < 256 ^ scalarSize := by
  rw [← Nat.not_le, ← Nat.not_le, ← of_eq_tooLarge_iff, ← of_eq_tooLarge_iff, h]

end ScalarClass

namespace Material

variable {m m' : Material P}

/-! ## Keys that differ in the scalar -/

/-- Materials that differ in nothing but the scalar, and have scalars of one class. -/
structure Similar (m m' : Material P) : Prop where
  scalar : m.scalar.map ScalarClass.of = m'.scalar.map ScalarClass.of
  point : m.point = m'.point
  compressed : m.compressed = m'.compressed

/-- Either both lack a scalar, or both have one of the same class. -/
theorem Similar.scalar_cases (h : Similar m m') :
    (m.scalar = none ∧ m'.scalar = none)
      ∨ ∃ d d', m.scalar = some d ∧ m'.scalar = some d' ∧ ScalarClass.of d = .of d' := by
  have hclass := h.scalar
  cases hd : m.scalar with
  | none =>
      rw [hd, Option.map_none, eq_comm, Option.map_eq_none_iff] at hclass
      exact .inl ⟨rfl, hclass⟩
  | some d =>
      rw [hd, Option.map_some, eq_comm, Option.map_eq_some_iff] at hclass
      obtain ⟨d', hd', hof⟩ := hclass
      exact .inr ⟨d, d', rfl, hd', hof.symm⟩

theorem agree_secretBytes {d d' : Nat} (h : ScalarClass.of d = .of d') :
    Agree (fun secret secret' => secret.length = secret'.length)
      (secretBytes d) (secretBytes d') := by
  refine .ite (ScalarClass.fits_congr h) (fun _ _ => .ok ?_) (.error _)
  rw [Bytes.ofNat_length, Bytes.ofNat_length]

theorem Similar.agree_getPrivate (h : Similar m m') : SameOutcome m.getPrivate m'.getPrivate := by
  rw [getPrivate, getPrivate]
  rcases h.scalar_cases with ⟨hd, hd'⟩ | ⟨d, d', hd, hd', hclass⟩
  · rw [hd, hd']
    exact .ok trivial
  · rw [hd, hd']
    exact (agree_secretBytes hclass).map fun _ _ _ => trivial

/-- Whether a key can be written depends on nothing but the number of the scalar's bytes. -/
theorem agree_encode {curve : Curve} {secret secret' publicKey : Bytes}
    (h : secret.length = secret'.length) :
    SameOutcome (EcPrivateKey.encode curve secret publicKey)
      (EcPrivateKey.encode curve secret' publicKey) := by
  rw [EcPrivateKey.encode, EcPrivateKey.encode, ← h]
  refine .ite Iff.rfl (fun _ _ => .error _) (.ite Iff.rfl (fun _ _ => .error _) ?_)
  cases Der.encodeObject curve.oid with
  | error fault => exact .error _
  | ok oid => exact .ok trivial

theorem Similar.agree_toDer (h : Similar m m') :
    SameOutcome (m.toDer backend) (m'.toDer backend) := by
  rw [toDer, toDer, ← h.point, ← h.compressed]
  rcases h.scalar_cases with ⟨hd, hd'⟩ | ⟨d, d', hd, hd', hclass⟩
  · rw [hd, hd']
    exact .ok trivial
  · rw [hd, hd']
    cases m.point with
    | none => exact .ok trivial
    | some Q =>
        -- As many bytes and the same public key, so nothing else can go wrong for one of them.
        refine .bind (agree_secretBytes hclass) fun secret secret' hlen => ?_
        exact .bind (agree_encode hlen) fun _ _ _ => .ok trivial

/-- A new point is derived from both or from neither. -/
theorem Similar.agree_regenerate (hb : Dependable backend) (h : Similar m m') :
    SameOutcome (m.regenerate backend) (m'.regenerate backend) := by
  rw [regenerate, regenerate]
  rcases h.scalar_cases with ⟨hd, hd'⟩ | ⟨d, d', hd, hd', hclass⟩
  · rw [hd, hd']
    exact .error _
  · rw [hd, hd']
    refine .ite ?_ (fun hvalid hvalid' => ?_) (.error _)
    · rw [isValidScalar_natCast, isValidScalar_natCast, ScalarClass.range_congr hclass]
    · obtain ⟨Q, hQ⟩ := hb.ofScalar (isValidScalar_natCast.mp hvalid)
      obtain ⟨R, hR⟩ := hb.ofScalar (isValidScalar_natCast.mp hvalid')
      rw [hQ, hR]
      exact .ok trivial

/-- What is put in place is put in place of both, and then they are similar again. -/
theorem Similar.agree_setPrivate (h : Similar m m') (data : Argument) :
    Agree Similar (m.setPrivate data) (m'.setPrivate data) := by
  rw [setPrivate, setPrivate]
  refine .map (.of_eq (fun _ => Eq.refl _) rfl) ?_
  rintro bytes _ rfl
  exact ⟨rfl, h.point, h.compressed⟩

theorem Similar.agree_setPublic (h : Similar m m') (data : Argument) :
    Agree Similar (m.setPublic backend data) (m'.setPublic backend data) := by
  rw [setPublic, setPublic]
  cases ensureFramed data with
  | error e => exact .error e
  | ok bytes =>
      dsimp only
      cases backend.parse? bytes with
      | none => exact .error _
      | some point => exact .ok ⟨h.scalar, rfl, rfl⟩

theorem Similar.agree_setCompressed (h : Similar m m') (value : Argument) :
    Agree Similar (m.setCompressed value) (m'.setCompressed value) := by
  rw [setCompressed, setCompressed]
  refine .map (.of_eq (fun _ => Eq.refl _) rfl) ?_
  rintro compressed _ rfl
  exact ⟨h.scalar, h.point, rfl⟩

/-- The backend signs what it is asked to sign with the scalar, if that is in range. -/
def Signable (backend : Backend P) (m : Material P) (digest : Argument) : Prop :=
  ∀ message d, ensureDigest digest = .ok message → m.scalar = some d →
    1 ≤ d ∧ d < groupOrder → ∃ signature, backend.sign d message = .ok signature

theorem Similar.agree_sign (hb : Dependable backend) (h : Similar m m') {digest : Argument}
    (hsign : m.Signable backend digest) (hsign' : m'.Signable backend digest) :
    SameOutcome (m.sign backend digest) (m'.sign backend digest) := by
  rw [sign, sign]
  rcases h.scalar_cases with ⟨hd, hd'⟩ | ⟨d, d', hd, hd', hclass⟩
  · rw [hd, hd']
    exact .error _
  · rw [hd, hd']
    cases hdigest : ensureDigest digest with
    | error e => exact .error e
    | ok message =>
        dsimp only
        refine .ite ?_ (fun hadmits hadmits' => ?_) (.error _)
        · rw [hb.admits_iff, hb.admits_iff, ScalarClass.range_congr hclass,
            ScalarClass.fits_congr hclass]
        · -- Neither is turned down before the backend is asked.
          obtain ⟨_, hok⟩ := hsign message d hdigest hd (hb.admits_iff.mp hadmits.2)
          obtain ⟨_, hok'⟩ := hsign' message d' hdigest hd' (hb.admits_iff.mp hadmits'.2)
          rw [hok, hok']
          exact .ok trivial

theorem Similar.publicPoint_eq (h : Similar m m') :
    m.publicPoint backend = m'.publicPoint backend := by
  rw [publicPoint, publicPoint, h.point]

theorem Similar.verify_eq (h : Similar m m') (digest signature : Argument) :
    m.verify backend digest signature = m'.verify backend digest signature := by
  rw [verify, verify, h.point]

theorem Similar.getPublic_eq (h : Similar m m') : m.getPublic backend = m'.getPublic backend := by
  rw [getPublic, getPublic, h.point, h.compressed]

theorem Similar.describe_eq (h : Similar m m') : m.describe backend = m'.describe backend := by
  have hsome := congrArg Option.isSome h.scalar
  rw [Option.isSome_map, Option.isSome_map] at hsome
  rw [describe, describe, h.getPublic_eq, hsome]

end Material

/-! ## Import -/

namespace Key

/-- Which refusal a public key gets depends on nothing but the public key. -/
theorem eq_of_decodedPoint {R : P} {publicKey : Option Bytes} {e : Failure}
    (h : decodedPoint backend R publicKey = .error e) :
    e = .decode (if (publicKey.bind backend.parse?).isSome then .publicDiffers
      else .publicUnreadable) := by
  cases publicKey with
  | none => cases h
  | some bytes =>
      rw [decodedPoint] at h
      rw [Option.bind_some]
      cases hparse : backend.parse? bytes with
      | none =>
          rw [hparse] at h
          cases h
          rfl
      | some point =>
          rw [hparse] at h
          dsimp only at h
          split at h
          · cases h
          · cases h
            rfl

theorem ofDer_of_undecoded {data : Bytes} {e : Failure}
    (h : EcPrivateKey.decode backend .secp256k1 data = .error e) (v : Vault) :
    ofDer backend (.bytes data) v = (.error e, v) := by
  have hbytes : Argument.ensureBytes "der" (.bytes data) = .ok data := rfl
  rw [ofDer, hbytes]
  dsimp only
  rw [h]

/-- What is decoded is refused for its public key or not at all. -/
theorem eq_of_ofDer (hb : Dependable backend) {data secret : Bytes} {publicKey : Option Bytes}
    {v : Vault} {e : Failure}
    (hdec : EcPrivateKey.decode backend .secp256k1 data = .ok ⟨secret, publicKey⟩)
    (h : (ofDer backend (.bytes data) v).1 = .error e) :
    e = .decode (if (publicKey.bind backend.parse?).isSome then .publicDiffers
      else .publicUnreadable) := by
  obtain ⟨d, hd, rfl⟩ := EcPrivateKey.exists_of_decode hdec
  obtain ⟨R, hR⟩ := hb.ofScalar hd
  rw [ofDer_of_decode hd hdec, hR] at h
  dsimp only at h
  cases hpoint : decodedPoint backend R publicKey with
  | error cause =>
      rw [hpoint] at h
      cases h
      exact eq_of_decodedPoint hpoint
  | ok made =>
      rw [hpoint] at h
      cases h

/-- Files that differ in the bytes of their scalars, both in range or both out of it, are
refused alike, if neither is imported. -/
theorem ofDer_error_eq (hb : Dependable backend) {front back secret secret' : Bytes} {size : Nat}
    (h : EcPrivateKey.Around back size front) (hs : secret.length = size)
    (hs' : secret'.length = size)
    (hrange : (1 ≤ Bytes.toNat secret ∧ Bytes.toNat secret < groupOrder)
      ↔ 1 ≤ Bytes.toNat secret' ∧ Bytes.toNat secret' < groupOrder)
    {v v' : Vault} {e e' : Failure}
    (he : (ofDer backend (.bytes (front ++ (secret ++ back))) v).1 = .error e)
    (he' : (ofDer backend (.bytes (front ++ (secret' ++ back))) v').1 = .error e') : e = e' := by
  have hrange' : (1 ≤ Bytes.toNat secret ∧ (Bytes.toNat secret : Int) < Curve.secp256k1.n)
      ↔ 1 ≤ Bytes.toNat secret' ∧ (Bytes.toNat secret' : Int) < Curve.secp256k1.n := by
    show (_ ∧ (Bytes.toNat secret : Int) < (groupOrder : Nat))
      ↔ _ ∧ (Bytes.toNat secret' : Int) < (groupOrder : Nat)
    rwa [Int.ofNat_lt, Int.ofNat_lt]
  have hdecode : Agree _ (EcPrivateKey.decode backend .secp256k1 (front ++ (secret ++ back)))
      (EcPrivateKey.decode backend .secp256k1 (front ++ (secret' ++ back))) :=
    EcPrivateKey.agree_decode h hs hs' hrange'
  -- Both are undecodable, or both are decoded and the public key is at fault.
  generalize front ++ (secret ++ back) = data at *
  generalize front ++ (secret' ++ back) = data' at *
  rcases hdec : EcPrivateKey.decode backend .secp256k1 data with cause | ⟨kept, publicKey⟩
  · rcases hdec' : EcPrivateKey.decode backend .secp256k1 data' with cause' | decoded'
    · rw [ofDer_of_undecoded hdec, Except.error.injEq] at he
      rw [ofDer_of_undecoded hdec', Except.error.injEq] at he'
      rw [hdec, hdec'] at hdecode
      rw [← he, ← he', hdecode.error_eq]
    · rw [hdec, hdec'] at hdecode
      cases hdecode
  · rcases hdec' : EcPrivateKey.decode backend .secp256k1 data' with cause' | ⟨kept', publicKey'⟩
    · rw [hdec, hdec'] at hdecode
      cases hdecode
    · rw [hdec, hdec'] at hdecode
      obtain rfl : publicKey = publicKey' := by
        cases hdecode
        assumption
      rw [eq_of_ofDer hb hdec he, eq_of_ofDer hb hdec' he']

end Key

end SecpKey
