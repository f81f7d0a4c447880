/-
  SecpKey.Proofs.Signature.Equation

  Verifying decides the ECDSA equation.  The backend is asked about the low-S form only
  and its answer is about that form; since the equation holds for `s` and `n - s` together,
  the outcome is the equation for the numbers as they were submitted.
-/
import SecpKey.Proofs.Curve.Equation
import SecpKey.Proofs.Signature.Verdict

namespace SecpKey.Signature

variable {P E : Type} [AddGroup E]

/-- Under the point `Q`, which stands for `q`, the backend decides the equation for low-S
signatures of digests of the right size. -/
def DecidesEquation (𝔾 : EquationGroup E) (backend : Backend P) (Q : P) (q : E) : Prop :=
  ∀ (r s : Nat) (digest : Bytes), InRange r s → s ≤ groupOrder / 2 → digest.length = digestSize →
    ∃ yes, backend.verify? Q (encode r s) digest = some yes
      ∧ (yes = true ↔ 𝔾.Satisfies q (Bytes.toNat digest) r s)

/-- What the curve arithmetic of this library answers about a low-S signature. -/
theorem verify?_secp256k1 (Q : Point) {r s : Nat} {digest : Bytes} (h : InRange r s)
    (hlow : s ≤ groupOrder / 2) (hd : digest.length = digestSize) :
    Backend.secp256k1.verify? Q (encode r s) digest
      = some (Ecdsa.verify Q (Ecdsa.messageScalar digest) r s) := by
  have hrange : (0 < r && r < groupOrder && 0 < s && s ≤ groupOrder / 2) = true := by
    simp only [Bool.and_eq_true, decide_eq_true_eq]
    exact ⟨⟨⟨h.1.1, h.1.2⟩, h.2.1⟩, hlow⟩
  simp only [Backend.secp256k1, h.parse_encode, hrange, Bool.true_and]
  exact if_neg (not_not.mpr hd)

/-- The curve arithmetic decides the equation under every point of the curve. -/
theorem decidesEquation_secp256k1 {Q : Point} (hQ : Q.onCurve = true) :
    DecidesEquation secp256k1Group Backend.secp256k1 Q Q.element := by
  intro r s digest h hlow hd
  refine ⟨_, verify?_secp256k1 Q h hlow hd, ?_⟩
  rw [Ecdsa.verify_iff hQ, Ecdsa.messageScalar, EquationGroup.satisfies_mod_iff]

section

variable {𝔾 : EquationGroup E} {backend : Backend P} {Q : P} {q : E} {digest : Bytes} {r s : Nat}

/-- A signature in range is valid exactly if the numbers in it, a high second one included,
satisfy the equation, and invalid otherwise. -/
theorem verifyDigest_valid_iff_satisfies (hq : ∃ d : Nat, q = d • 𝔾.generator)
    (hdec : DecidesEquation 𝔾 backend Q q) (hd : digest.length = digestSize) (h : InRange r s) :
    (verifyDigest backend Q digest (encode r s) = .ok .valid
        ↔ 𝔾.Satisfies q (Bytes.toNat digest) r s)
      ∧ (¬ 𝔾.Satisfies q (Bytes.toNat digest) r s →
          verifyDigest backend Q digest (encode r s) = .ok .invalid) := by
  -- The answer is about the low-S form, which satisfies the equation with `s`.
  obtain ⟨yes, hanswer, hyes⟩ := hdec r _ digest h.low h.lower.2 hd
  rw [EquationGroup.satisfies_min_iff hq h.2.2.le] at hyes
  rw [verifyDigest_inRange h, hanswer, ← hyes]
  cases yes with
  | true => exact ⟨⟨fun _ => rfl, fun _ => rfl⟩, fun hno => absurd rfl hno⟩
  | false =>
      refine ⟨⟨fun h0 => ?_, fun h0 => absurd h0 Bool.false_ne_true⟩, fun _ => rfl⟩
      cases h0

/-- A signature with a high second number, under the point of the scalar two. -/
theorem verifyDigest_valid_iff_satisfies_highS :
    ∃ Q, Point.smul? 2 .generator = some Q
      ∧ (∃ d : Nat, Q.element = d • secp256k1Group.generator)
      ∧ DecidesEquation secp256k1Group Backend.secp256k1 Q Q.element
      ∧ groupOrder / 2 < 2 * generatorX + 1
      ∧ secp256k1Group.Satisfies Q.element 1 generatorX (2 * generatorX + 1)
      ∧ verifyDigest Backend.secp256k1 Q (Bytes.ofNat digestSize 1)
          (encode generatorX (2 * generatorX + 1)) = .ok .valid := by
  have hpoint : (Point.smul? 2 .generator).isSome = true := by decide +kernel
  obtain ⟨Q, hQ⟩ := Option.isSome_iff_exists.mp hpoint
  obtain ⟨hon, helem⟩ := Point.element_of_smul? Point.onCurve_generator hQ
  have hsign : Ecdsa.signWith? 2 1 1
      = some (generatorX, groupOrder - (2 * generatorX + 1)) := by decide +kernel
  have hmul : ∃ d : Nat, Q.element = d • secp256k1Group.generator := ⟨2, helem⟩
  have hsat : secp256k1Group.Satisfies Q.element 1 generatorX (2 * generatorX + 1) := by
    rw [← EquationGroup.satisfies_sub_iff hmul (by decide), helem]
    exact (Ecdsa.satisfies_of_signWith? hsign).2
  have hrange : InRange generatorX (2 * generatorX + 1) := inRange_iff.mp (by decide)
  have hlen : (Bytes.ofNat digestSize 1).length = digestSize := Bytes.ofNat_length _ _
  have hdigest : Bytes.toNat (Bytes.ofNat digestSize 1) = 1 := by decide
  have hvalid :=
    (verifyDigest_valid_iff_satisfies hmul (decidesEquation_secp256k1 hon) hlen hrange).1
  rw [hdigest] at hvalid
  exact ⟨Q, hQ, hmul, decidesEquation_secp256k1 hon, by decide, hsat, hvalid.mpr hsat⟩

end

end SecpKey.Signature
