/-
  SecpKey.Proofs.Curve.Equation

  The ECDSA equation.  `EquationGroup` is what it is stated over: a group with a generator
  of order `n` and first coordinates that a point shares with its opposite.  Taking `n - s`
  for `s` turns the point of the equation into its opposite (`candidate_sub`), so the
  equation holds for both or for neither (`satisfies_sub_iff`).  The points of secp256k1
  are such a group, and `Ecdsa.verify` decides the equation over it.
-/
import SecpKey.Curve.Ecdsa
import SecpKey.Proofs.Curve.Group

namespace SecpKey

/-- Residues modulo the group order. -/
abbrev Scalar : Type := ZMod groupOrder

/-- A group that the ECDSA equation can be stated over. -/
structure EquationGroup (E : Type) [AddGroup E] where
  generator : E
  /-- The first coordinate; its value at the point at infinity does not matter. -/
  x : E → Nat
  addOrderOf_generator : addOrderOf generator = groupOrder
  x_neg : ∀ R, x (-R) = x R

namespace EquationGroup

variable {E : Type} [AddGroup E]

/-- `(z / s) G + (r / s) q`, with quotients modulo `n`. -/
def candidate (𝔾 : EquationGroup E) (q : E) (z r s : Nat) : E :=
  ((z : Scalar) * (s : Scalar)⁻¹).val • 𝔾.generator + ((r : Scalar) * (s : Scalar)⁻¹).val • q

/-- The ECDSA equation for `(r, s)`, message scalar `z` and public point `q`. -/
def Satisfies (𝔾 : EquationGroup E) (q : E) (z r s : Nat) : Prop :=
  𝔾.candidate q z r s ≠ 0 ∧ 𝔾.x (𝔾.candidate q z r s) % groupOrder = r

variable {𝔾 : EquationGroup E} {q : E} {z r s : Nat}

/-! ## Multiples by residues -/

/-- Multiples of the generator only depend on the residue. -/
theorem cast_val_nsmul (k : Nat) : (k : Scalar).val • 𝔾.generator = k • 𝔾.generator := by
  rw [ZMod.val_natCast, ← mod_addOrderOf_nsmul 𝔾.generator k, 𝔾.addOrderOf_generator]

theorem neg_val_nsmul (a : Scalar) : (-a).val • 𝔾.generator = -(a.val • 𝔾.generator) := by
  have hsum : (((-a).val + a.val : Nat) : Scalar) = 0 := by
    rw [Nat.cast_add, ZMod.natCast_zmod_val, ZMod.natCast_zmod_val, neg_add_cancel]
  apply eq_neg_of_add_eq_zero_left
  rw [← add_nsmul, ← cast_val_nsmul, hsum, ZMod.val_zero, zero_nsmul]

/-- Under a multiple of the generator, the point of the equation is one as well. -/
theorem candidate_eq_nsmul {d : Nat} (hq : q = d • 𝔾.generator) :
    𝔾.candidate q z r s
      = (((z : Scalar) + r * d) * (s : Scalar)⁻¹).val • 𝔾.generator := by
  -- Sums of multiples are taken modulo the order of the generator.
  have hsum : ∀ a b : Scalar, a.val • 𝔾.generator + b.val • d • 𝔾.generator
      = (a + b * d).val • 𝔾.generator := by
    intro a b
    rw [← mul_nsmul', ← add_nsmul, ← cast_val_nsmul, Nat.cast_add, Nat.cast_mul,
      ZMod.natCast_zmod_val, ZMod.natCast_zmod_val]
  rw [candidate, hq, hsum]
  congr 2
  ring

/-! ## The opposite second number -/

/-- `n - s` is `-s`, and so is its inverse: both multipliers change sign. -/
theorem candidate_sub (hq : ∃ d : Nat, q = d • 𝔾.generator) (hs : s ≤ groupOrder) :
    𝔾.candidate q z r (groupOrder - s) = -𝔾.candidate q z r s := by
  obtain ⟨d, hq⟩ := hq
  have hcast : ((groupOrder - s : Nat) : Scalar) = -(s : Scalar) := by
    rw [Nat.cast_sub hs, ZMod.natCast_self, zero_sub]
  rw [candidate_eq_nsmul hq, candidate_eq_nsmul hq, hcast, inv_neg, mul_neg, neg_val_nsmul]

theorem satisfies_sub_iff (hq : ∃ d : Nat, q = d • 𝔾.generator) (hs : s ≤ groupOrder) :
    𝔾.Satisfies q z r (groupOrder - s) ↔ 𝔾.Satisfies q z r s := by
  rw [Satisfies, Satisfies, candidate_sub hq hs, 𝔾.x_neg, Ne, neg_eq_zero]

/-- Folding keeps the equation. -/
theorem satisfies_min_iff (hq : ∃ d : Nat, q = d • 𝔾.generator) (hs : s ≤ groupOrder) :
    𝔾.Satisfies q z r (min s (groupOrder - s)) ↔ 𝔾.Satisfies q z r s := by
  rcases Nat.le_total s (groupOrder - s) with h | h
  · rw [Nat.min_eq_left h]
  · rw [Nat.min_eq_right h]
    exact satisfies_sub_iff hq hs

/-- The equation looks at the message scalar modulo `n` only. -/
theorem satisfies_mod_iff : 𝔾.Satisfies q (z % groupOrder) r s ↔ 𝔾.Satisfies q z r s := by
  rw [Satisfies, Satisfies, candidate, candidate, ZMod.natCast_mod]

/-- A second number made with the nonce `k` leads back to the point of the nonce. -/
theorem candidate_of_nonce {d k : Nat} (hq : q = d • 𝔾.generator) (hs0 : (s : Scalar) ≠ 0)
    (hs : (s : Scalar) = (k : Scalar)⁻¹ * (z + r * d)) : 𝔾.candidate q z r s = k • 𝔾.generator := by
  have hk : ((z : Scalar) + r * d) * (s : Scalar)⁻¹ = k := by
    rw [hs] at hs0
    rw [hs, mul_inv, inv_inv, mul_comm (k : Scalar),
      mul_inv_cancel_left₀ (right_ne_zero_of_mul hs0)]
  rw [candidate_eq_nsmul hq, hk, cast_val_nsmul]

end EquationGroup

/-! ## The equation on secp256k1 -/

namespace Group

def x : Group → Nat
  | .zero => 0
  | .some x _ _ => x.val

/-- The opposite point has the opposite second coordinate. -/
theorem x_neg (R : Group) : (-R).x = R.x := by
  rcases R with _ | ⟨x, y, h⟩
  · rfl
  · rfl

/-- A point of the curve keeps its first coordinate. -/
theorem x_element {P : Point} (hP : P.onCurve = true) : P.element ≠ 0 ∧ x P.element = P.x := by
  rw [Point.element, dif_pos hP]
  refine ⟨WeierstrassCurve.Affine.Point.some_ne_zero _, ?_⟩
  show ZMod.val (P.x : Field) = P.x
  simp only [Point.onCurve, Bool.and_eq_true, decide_eq_true_eq] at hP
  rw [ZMod.val_natCast, Nat.mod_eq_of_lt hP.1.1]

end Group

/-- The points of secp256k1 as a group for the equation. -/
def secp256k1Group : EquationGroup Group where
  generator := Point.generator.element
  x := Group.x
  addOrderOf_generator := addOrderOf_generator
  x_neg := Group.x_neg

namespace Ecdsa

/-- The multipliers that `verify` computes are the quotients of the equation. -/
theorem quotient_eq (a s : Nat) :
    a * Modular.inverse groupOrder s % groupOrder = ((a : Scalar) * (s : Scalar)⁻¹).val := by
  rw [← ZMod.val_natCast, Nat.cast_mul, Modular.cast_inverse (by decide)]

/-- What `verify` computes stands for the point of the equation. -/
theorem represents_candidate {Q : Point} (hQ : Q.onCurve = true) (z r s : Nat) :
    Represents
      (.add (.smul (z * Modular.inverse groupOrder s % groupOrder) (.ofPoint .generator))
        (.smul (r * Modular.inverse groupOrder s % groupOrder) (.ofPoint Q)))
      (secp256k1Group.candidate Q.element z r s) := by
  rw [quotient_eq, quotient_eq]
  have hgen := Represents.ofPoint Point.onCurve_generator
  exact (hgen.smul _).add ((Represents.ofPoint hQ).smul _)

/-- `verify` decides the equation under every point of the curve. -/
theorem verify_iff {Q : Point} (hQ : Q.onCurve = true) {z r s : Nat} :
    verify Q z r s = true ↔ secp256k1Group.Satisfies Q.element z r s := by
  have hrep := represents_candidate hQ z r s
  simp only [verify, Point.combine?, EquationGroup.Satisfies]
  -- At infinity there is no first coordinate to compare.
  rcases hR : secp256k1Group.candidate Q.element z r s with _ | ⟨x, y, h⟩
  · rw [hR] at hrep
    rw [hrep.toPoint?_zero]
    exact ⟨fun h => absurd h Bool.false_ne_true, fun h => absurd rfl h.1⟩
  · rw [hR] at hrep
    rw [hrep.toPoint?_some]
    have hx : secp256k1Group.x (.some x y h) = x.val := rfl
    rw [beq_iff_eq, hx]
    exact ⟨fun hr => ⟨WeierstrassCurve.Affine.Point.some_ne_zero h, hr⟩, And.right⟩

/-! ### Signing -/

/-- What a signature with the nonce `k` is made of, before its second number is lowered. -/
theorem signWith?_eq_some {d z k r s : Nat} (h : signWith? d z k = some (r, s)) :
    ∃ R s', Point.smul? k .generator = some R ∧ R.x % groupOrder = r ∧ r ≠ 0
      ∧ Modular.inverse groupOrder k * (z + r * d) % groupOrder = s' ∧ s' ≠ 0 ∧ lowS s' = s := by
  unfold signWith? at h
  split at h
  · cases h
  simp only [Option.bind_eq_bind, Option.bind_eq_some_iff] at h
  obtain ⟨R, hR, h⟩ := h
  split at h
  · cases h
  next h0 =>
  obtain ⟨hr0, hs0⟩ := not_or.mp h0
  simp only [Option.some.injEq, Prod.mk.injEq] at h
  obtain ⟨rfl, rfl⟩ := h
  exact ⟨R, _, hR, rfl, hr0, rfl, hs0, rfl⟩

/-- The numbers made with a nonce satisfy the equation under the public point. -/
theorem satisfies_of_nonce {d z k s : Nat} {R : Point} (hR : Point.smul? k .generator = some R)
    (hs : Modular.inverse groupOrder k * (z + R.x % groupOrder * d) % groupOrder = s)
    (hs0 : s ≠ 0) :
    secp256k1Group.Satisfies (d • Point.generator.element) z (R.x % groupOrder) s := by
  obtain ⟨hron, helem⟩ := Point.element_of_smul? Point.onCurve_generator hR
  have hslt : s < groupOrder := hs ▸ Nat.mod_lt _ groupOrder_prime.pos
  have hs0F : (s : Scalar) ≠ 0 := by
    rw [Ne, ZMod.natCast_eq_zero_iff]
    exact Nat.not_dvd_of_pos_of_lt (Nat.pos_of_ne_zero hs0) hslt
  have hsF : (s : Scalar) = (k : Scalar)⁻¹ * (z + (R.x % groupOrder : Nat) * d) := by
    rw [← hs, ZMod.natCast_mod, Nat.cast_mul, Modular.cast_inverse (by decide), Nat.cast_add,
      Nat.cast_mul]
  -- The equation leads back to the point of the nonce, which gave the first number.
  have hcand : secp256k1Group.candidate (d • Point.generator.element) z (R.x % groupOrder) s
      = R.element := by
    rw [helem]
    exact EquationGroup.candidate_of_nonce rfl hs0F hsF
  obtain ⟨hne, hx⟩ := Group.x_element hron
  rw [EquationGroup.Satisfies, hcand]
  refine ⟨hne, ?_⟩
  show Group.x R.element % groupOrder = R.x % groupOrder
  rw [hx]

/-- The group order is odd, so the lower number is at most half of it. -/
theorem lowS_range {s : Nat} (hs0 : s ≠ 0) (hs : s < groupOrder) :
    1 ≤ lowS s ∧ lowS s ≤ groupOrder / 2 := by
  have hodd : groupOrder % 2 = 1 := by decide
  unfold lowS
  split <;> omega

/-- Signing with a nonce gives low-S numbers in range that satisfy the equation under the
public point. -/
theorem satisfies_of_signWith? {d z k r s : Nat} (h : signWith? d z k = some (r, s)) :
    ((1 ≤ r ∧ r < groupOrder) ∧ 1 ≤ s ∧ s ≤ groupOrder / 2)
      ∧ secp256k1Group.Satisfies (d • Point.generator.element) z r s := by
  obtain ⟨R, s', hR, rfl, hr0, hs', hs0, rfl⟩ := signWith?_eq_some h
  have hsat := satisfies_of_nonce hR hs' hs0
  have hrlt : R.x % groupOrder < groupOrder := Nat.mod_lt _ groupOrder_prime.pos
  have hslt : s' < groupOrder := hs' ▸ Nat.mod_lt _ groupOrder_prime.pos
  refine ⟨⟨⟨Nat.pos_of_ne_zero hr0, hrlt⟩, lowS_range hs0 hslt⟩, ?_⟩
  unfold lowS
  split
  · exact (EquationGroup.satisfies_sub_iff ⟨d, rfl⟩ hslt.le).mpr hsat
  · exact hsat

end Ecdsa

end SecpKey
