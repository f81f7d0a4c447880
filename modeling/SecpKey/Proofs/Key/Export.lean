/-
  SecpKey.Proofs.Key.Export

  Exporting a key in any state, and importing what came of it.  An export holds the scalar
  in 32 bytes and the point in the key's own form (`exists_toDer`), whether or not the two
  belong together; `ofDer_exported` says that the import finds out.  What is needed of the
  backend is a `PointGroup`: its points are elements of a group and are told apart by their
  coordinates, and either SEC1 form is read as the point it is of.
-/
import SecpKey.Proofs.Key.Failure
import SecpKey.Proofs.Key.Signing

namespace SecpKey

variable {P E : Type} [AddGroup E] {backend : Backend P}

/-! ## Points of the backend -/

/-- A point that the backend handed out, for a scalar or for bytes. -/
inductive Given (backend : Backend P) : P → Prop
  | ofScalar {d : Nat} {Q : P} (h : backend.ofScalar d = .ok Q) : Given backend Q
  | parsed {bytes : Bytes} {Q : P} (h : backend.parse? bytes = some Q) : Given backend Q

/-- A group whose elements are what the points of the backend stand for. -/
structure PointGroup (backend : Backend P) (E : Type) [AddGroup E] where
  generator : E
  element : P → E
  ofScalar : ∀ {d : Nat}, 1 ≤ d ∧ d < groupOrder →
    ∃ Q, backend.ofScalar d = .ok Q ∧ element Q = d • generator
  coordinates_eq_iff : ∀ {Q R : P}, Given backend Q → Given backend R →
    (backend.coordinates Q = backend.coordinates R ↔ element Q = element R)
  length_format : ∀ {Q : P} (compressed : Bool), Given backend Q →
    (backend.format Q compressed).length = formSize compressed
  parse?_format : ∀ {Q : P} (compressed : Bool), Given backend Q →
    backend.parse? (backend.format Q compressed) = some Q

/-- The scalar is in range, and the point is the multiple of the generator by it. -/
def PointGroup.Matches (𝔾 : PointGroup backend E) (d : Nat) (Q : P) : Prop :=
  (1 ≤ d ∧ d < groupOrder) ∧ 𝔾.element Q = d • 𝔾.generator

theorem Given.onCurve {Q : Point} (h : Given Backend.secp256k1 Q) : Q.onCurve = true := by
  cases h with
  | @ofScalar d _ h =>
      simp only [Backend.secp256k1] at h
      split at h
      · split at h
        · next R hR =>
          obtain rfl := Except.ok.inj h
          exact (Point.element_of_smul? Point.onCurve_generator hR).1
        · cases h
      · cases h
  | parsed h => exact Point.onCurve_of_parse? h

/-- The points of secp256k1. -/
def pointGroup : PointGroup Backend.secp256k1 Group where
  generator := Point.generator.element
  element := Point.element
  ofScalar hd := by
    obtain ⟨Q, hQ, -, helem⟩ := exists_publicPoint_secp256k1 hd
    exact ⟨Q, hQ.ofScalar, helem⟩
  coordinates_eq_iff {Q R} hQ hR := by
    rw [Point.element_inj hQ.onCurve hR.onCurve]
    show (Q.x, Q.y) = (R.x, R.y) ↔ Q = R
    rw [Prod.mk.injEq, Point.mk.injEq]
  length_format compressed _ := Point.length_format _ compressed
  parse?_format compressed hQ := Point.parse?_format hQ.onCurve compressed

/-- Points are told apart by their coordinates and by either of their SEC1 forms, and a form
has the size that belongs to it. -/
structure ToldApart (backend : Backend P) : Prop where
  coordinates : ∀ {Q R : P}, Given backend Q → Given backend R →
    backend.coordinates Q = backend.coordinates R → Q = R
  format : ∀ {Q R : P} (compressed : Bool), Given backend Q → Given backend R →
    backend.format Q compressed = backend.format R compressed → Q = R
  length_format : ∀ {Q : P} (compressed : Bool), Given backend Q →
    (backend.format Q compressed).length = formSize compressed

theorem toldApart_secp256k1 : ToldApart Backend.secp256k1 where
  coordinates {Q R} _ _ h := by
    have hxy : (Q.x, Q.y) = (R.x, R.y) := h
    rwa [Prod.mk.injEq, ← Point.mk.injEq] at hxy
  format compressed hQ hR h := by
    have hread := pointGroup.parse?_format compressed hQ
    rw [h, pointGroup.parse?_format compressed hR] at hread
    exact (Option.some.inj hread).symm
  length_format compressed hQ := pointGroup.length_format compressed hQ

namespace Key

variable {k : Key P} {v : Vault} {h d : Nat} {buffer der : Bytes} {Q : P}

/-! ## Where points come from -/

/-- Whatever point the key has was handed out by the backend. -/
def Sourced (backend : Backend P) (k : Key P) : Prop := ∀ Q, k.point = some Q → Given backend Q

theorem GenerateOutcome.sourced {draws left : List Draw} {o : Outcome (Key P × List Draw)}
    (h : GenerateOutcome backend draws v o) (hok : o.1 = .ok (k, left)) : Sourced backend k := by
  cases h with
  | failed _ _ => cases hok
  | made _ _ _ expected =>
      cases hok
      rintro _ ⟨⟩
      exact .ofScalar expected

theorem Imports.given {data : Bytes} {publicKey : Option Bytes} {compressed : Bool}
    (h : Imports backend data publicKey d Q compressed) : Given backend Q := by
  cases h with
  | derived _ _ expected => exact .ofScalar expected
  | embedded _ _ _ parsed _ => exact .parsed parsed

theorem ImportOutcome.sourced {a : Argument} {o : Outcome (Key P)}
    (h : ImportOutcome backend v a o) (hok : o.1 = .ok k) : Sourced backend k := by
  cases h with
  | unread _ => cases hok
  | undecoded _ => cases hok
  | refused _ _ => cases hok
  | made himports =>
      cases hok
      rintro _ ⟨⟩
      exact himports.given

theorem sourced_setPrivate {data : Argument} {l : Key P} (hk : Sourced backend k)
    (h : (k.setPrivate data v).1 = .ok l) : Sourced backend l := by
  unfold setPrivate at h
  split at h
  · cases h
  · cases h
    exact hk

theorem sourced_setPublic {data : Argument} {l : Key P} (h : k.setPublic backend data = .ok l) :
    Sourced backend l := by
  obtain ⟨bytes, Q, -, -, hQ, rfl⟩ := setPublic_eq_ok_iff.mp h
  rintro _ ⟨⟩
  exact .parsed hQ

theorem sourced_setCompressed {value : Argument} {l : Key P} (hk : Sourced backend k)
    (h : k.setCompressed value = .ok l) : Sourced backend l := by
  rw [setCompressed] at h
  cases htruth : value.truth with
  | error e =>
      rw [htruth] at h
      cases h
  | ok compressed =>
      rw [htruth] at h
      cases h
      exact hk

theorem RegenerateOutcome.sourced {l : Key P} {o : Outcome (Key P)}
    (h : RegenerateOutcome backend k v o) (hok : o.1 = .ok l) : Sourced backend l := by
  cases h with
  | missing _ => cases hok
  | wiped _ _ => cases hok
  | refused _ _ => cases hok
  | made _ _ _ expected =>
      cases hok
      rintro _ ⟨⟩
      exact .ofScalar expected

/-! ## Export -/

/-- Without one of the halves there is nothing to export. -/
theorem toDer_of_missing (hmissing : k.secret = none ∨ k.point = none) :
    k.toDer backend v = .ok none := by
  rw [toDer]
  split
  · next hs hp =>
    rw [hs, hp] at hmissing
    rcases hmissing with hnone | hnone
    · cases hnone
    · cases hnone
  · rfl

theorem toDer_of_tooLarge (hs : k.secret = some h) (hv : v.get h = .live buffer)
    (hpoint : k.point = some Q) (hd : 256 ^ scalarSize ≤ Bytes.toNat buffer) :
    k.toDer backend v = .error (.encoding .secretTooLarge) := by
  have hbytes : (v.get h).toBytes scalarSize = .error (.encoding .secretTooLarge) := by
    rw [hv, SecretScalar.toBytes_live, if_neg (Nat.not_lt.mpr hd)]
  rw [toDer, hs, hpoint]
  dsimp only
  rw [hbytes]
  rfl

/-! ## Import -/

/-- What was exported denotes nothing but the scalar and the point that were. -/
theorem Imports.matches (𝔾 : PointGroup backend E) {compressed compressed' : Bool}
    {publicKey : Option Bytes} {d' : Nat} {Q' : P} (hQ : Given backend Q)
    (hd : d < 256 ^ scalarSize)
    (hdec : EcPrivateKey.decode backend .secp256k1 der
      = .ok ⟨Bytes.ofNat scalarSize d, some (backend.format Q compressed)⟩)
    (h : Imports backend der publicKey d' Q' compressed') : 𝔾.Matches d Q := by
  have hdecoded := h.decoded.symm.trans hdec
  obtain ⟨hsecret, rfl⟩ : Bytes.ofNat scalarSize d' = Bytes.ofNat scalarSize d
      ∧ publicKey = some (backend.format Q compressed) := by simpa using hdecoded
  obtain rfl : d' = d := by
    rw [← SecretScalar.toNat_ofNat_scalarSize h.range.2, hsecret, Bytes.toNat_ofNat hd]
  cases h with
  | embedded range _ expected parsed same =>
      obtain rfl := Option.some.inj ((𝔾.parse?_format compressed hQ).symm.trans parsed)
      obtain ⟨R, hR, helem⟩ := 𝔾.ofScalar range
      obtain rfl := Except.ok.inj (expected.symm.trans hR)
      exact ⟨range, ((𝔾.coordinates_eq_iff hQ (.ofScalar expected)).mp same).trans helem⟩

/-- What was exported is imported as it was if scalar and point belong together, and
refused if they do not. -/
theorem ofDer_exported (𝔾 : PointGroup backend E) {compressed : Bool} (hQ : Given backend Q)
    (hd : d < 256 ^ scalarSize)
    (hparts : EcPrivateKey.readParts backend .secp256k1 der
      = .ok (Bytes.ofNat scalarSize d, some (backend.format Q compressed))) (w : Vault) :
    (𝔾.Matches d Q ∧ ofDer backend (.bytes der) w
        = (.ok ⟨some w.cells.length, some Q, compressed⟩,
            (w.put (.live (Bytes.ofNat scalarSize d))).2))
      ∨ (¬ 𝔾.Matches d Q ∧ ∃ cause after,
          ofDer backend (.bytes der) w = (.error (.decode cause), after)) := by
  have hdec := EcPrivateKey.decode_of_readParts hparts (Bytes.ofNat_length _ _)
  rw [Bytes.toNat_ofNat hd] at hdec
  by_cases hmatch : 𝔾.Matches d Q
  · have hrange := hmatch.1
    rw [if_pos ⟨hrange.1, Int.ofNat_lt.mpr hrange.2⟩] at hdec
    obtain ⟨R, hR, helem⟩ := 𝔾.ofScalar hrange
    have hsame : backend.coordinates Q = backend.coordinates R :=
      (𝔾.coordinates_eq_iff hQ (.ofScalar hR)).mpr (hmatch.2.trans helem.symm)
    have himports := Imports.embedded hrange hdec hR (𝔾.parse?_format compressed hQ) hsame
    rw [𝔾.length_format compressed hQ, formSize_beq] at himports
    exact .inl ⟨hmatch, himports.ofDer w⟩
  · have houtcome : ImportOutcome backend w (.bytes der) (ofDer backend (.bytes der) w) :=
      outcome_ofDer _ w
    refine .inr ⟨hmatch, ?_⟩
    rcases hof : ofDer backend (.bytes der) w with ⟨e | k, after⟩
    · obtain ⟨cause, rfl⟩ := Failure.exists_decode (houtcome.refuses e (congrArg Prod.fst hof))
      exact ⟨cause, after, rfl⟩
    · obtain ⟨publicKey, d', Q', compressed', himports⟩ := houtcome.imports (congrArg Prod.fst hof)
      -- The scalar was in range then, or nothing would have been decoded.
      have hdecoded := himports.decoded
      rw [hdec] at hdecoded
      split at hdecoded
      · next hrange =>
        rw [if_pos hrange] at hdec
        exact absurd (himports.matches 𝔾 hQ hd hdec) hmatch
      · cases hdecoded

end Key

end SecpKey
