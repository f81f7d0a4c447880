/-
  SecpKey.Proofs.Curve.Group

  The point arithmetic is that of the group of the curve.  `Represents` relates a triple
  of projective coordinates to an element of the group; doubling, adding and multiples
  keep it (`Represents.double`, `Represents.add`, `Represents.smul`), and `toPoint?` gives
  the affine coordinates of what is represented.  The generator has order `groupOrder`.
-/
import SecpKey.Curve.Point
import SecpKey.Proofs.Curve.Primality
import Mathlib.AlgebraicGeometry.EllipticCurve.Affine.Point
import Mathlib.GroupTheory.OrderOfElement
import Mathlib.Tactic.LinearCombination

namespace SecpKey

open WeierstrassCurve

/-! ## Arithmetic of the field -/

abbrev Field : Type := ZMod fieldPrime

theorem fieldPrime_pos : 0 < fieldPrime := fieldPrime_prime.pos

theorem mod_lt_fieldPrime (x : Nat) : x % fieldPrime < fieldPrime := Nat.mod_lt _ fieldPrime_pos

/-- Field elements are equal if their representatives below the prime are. -/
theorem cast_inj {x y : Nat} (hx : x < fieldPrime) (hy : y < fieldPrime) :
    (x : Field) = y ↔ x = y := by
  rw [ZMod.natCast_eq_natCast_iff', Nat.mod_eq_of_lt hx, Nat.mod_eq_of_lt hy]

theorem cast_eq_zero {x : Nat} (hx : x < fieldPrime) : (x : Field) = 0 ↔ x = 0 := by
  have := cast_inj hx fieldPrime_pos
  simpa using this

theorem two_ne_zero_field : (2 : Field) ≠ 0 := by
  have := cast_eq_zero (x := 2) (by decide)
  simpa using this

/-! ## The group of the curve -/

/-- The curve `y² = x³ + 7`. -/
def curve : Affine Field := { a₁ := 0, a₂ := 0, a₃ := 0, a₄ := 0, a₆ := 7 }

/-- The points of the curve, with the point at infinity. -/
abbrev Group : Type := curve.Point

theorem equation_iff (x y : Field) : curve.Equation x y ↔ y ^ 2 = x ^ 3 + 7 := by
  rw [Affine.equation_iff]
  simp [curve]

theorem negY_eq (x y : Field) : curve.negY x y = -y := by
  simp [Affine.negY, curve]

theorem addX_eq (x₁ x₂ l : Field) : curve.addX x₁ x₂ l = l ^ 2 - x₁ - x₂ := by
  simp [Affine.addX, curve]

theorem addY_eq (x₁ x₂ y₁ l : Field) :
    curve.addY x₁ x₂ y₁ l = -(l * (l ^ 2 - x₁ - x₂ - x₁) + y₁) := by
  rw [Affine.addY, negY_eq, Affine.negAddY, addX_eq]

/-- The chord through two points with different first coordinates. -/
theorem slope_chord {x₁ x₂ : Field} (y₁ y₂ : Field) (h : x₁ ≠ x₂) :
    curve.slope x₁ x₂ y₁ y₂ * (x₁ - x₂) = y₁ - y₂ := by
  rw [Affine.slope_of_X_ne h, div_mul_cancel₀ _ (sub_ne_zero.mpr h)]

theorem ne_negY {x y : Field} (h : y ≠ 0) : y ≠ curve.negY x y := by
  rw [negY_eq, Ne, ← sub_eq_zero, sub_neg_eq_add, ← two_mul]
  exact mul_ne_zero two_ne_zero_field h

/-- The tangent in a point off the first axis. -/
theorem slope_tangent {x y : Field} (h : y ≠ 0) :
    2 * y * curve.slope x x y y = 3 * x ^ 2 := by
  rw [Affine.slope_of_Y_ne rfl (ne_negY h), negY_eq, sub_neg_eq_add, ← two_mul,
    mul_div_cancel₀ _ (mul_ne_zero two_ne_zero_field h)]
  simp [curve]

theorem discriminant_ne_zero : curve.Δ ≠ 0 := by
  have hval : curve.Δ = ((fieldPrime - 27 * (28 * 28) : Nat) : Field) := by
    rw [Nat.cast_sub (by decide), ZMod.natCast_self]
    simp only [WeierstrassCurve.Δ, WeierstrassCurve.b₂, WeierstrassCurve.b₄, WeierstrassCurve.b₆,
      WeierstrassCurve.b₈, curve]
    push_cast
    ring
  rw [hval, Ne, cast_eq_zero (by decide)]
  decide

theorem nonsingular_of_equation {x y : Field} (h : y ^ 2 = x ^ 3 + 7) : curve.Nonsingular x y :=
  (Affine.equation_iff_nonsingular_of_Δ_ne_zero discriminant_ne_zero).mp ((equation_iff x y).mpr h)

theorem Point.equation_of_onCurve {P : Point} (h : P.onCurve = true) :
    (P.y : Field) ^ 2 = (P.x : Field) ^ 3 + 7 := by
  simp only [onCurve, curveRhs, Bool.and_eq_true, beq_iff_eq] at h
  have := congrArg (Nat.cast : Nat → Field) h.2
  simp only [ZMod.natCast_mod, Nat.cast_mul, Nat.cast_add] at this
  push_cast at this
  rw [pow_two, this]
  ring

/-- The element of the group that affine coordinates stand for; the point at infinity when
they are not on the curve. -/
def Point.element (P : Point) : Group :=
  if h : P.onCurve = true then
    .some P.x P.y (nonsingular_of_equation (equation_of_onCurve h))
  else 0

/-- Points of the curve stand for the same element only if they have the same coordinates. -/
theorem Point.element_inj {P Q : Point} (hP : P.onCurve = true) (hQ : Q.onCurve = true) :
    P.element = Q.element ↔ P = Q := by
  constructor
  · intro h
    rw [Point.element, dif_pos hP, Point.element, dif_pos hQ, Affine.Point.some.injEq] at h
    simp only [onCurve, Bool.and_eq_true, decide_eq_true_eq] at hP hQ
    have hx := (cast_inj hP.1.1 hQ.1.1).mp h.1
    have hy := (cast_inj hP.1.2 hQ.1.2).mp h.2
    cases P
    cases Q
    exact congrArg₂ Point.mk hx hy
  · rintro rfl
    rfl

/-! ## Triples of coordinates -/

/-- A triple stands for an element of the group: `z = 0` for the point at infinity, else
`(x / z², y / z³)` are its coordinates. -/
structure Represents (T : Jacobian) (A : Group) : Prop where
  y_lt : T.y < fieldPrime
  z_lt : T.z < fieldPrime
  z_eq_zero : T.z = 0 ↔ A = 0
  coordinates : ∀ {x y h}, A = .some x y h →
    (T.x : Field) = x * (T.z : Field) ^ 2 ∧ (T.y : Field) = y * (T.z : Field) ^ 3

namespace Jacobian

/-- Doubling, over the field. -/
theorem cast_double {T : Jacobian} (h : ¬ (T.z = 0 ∨ T.y = 0)) :
    (T.double.x : Field) = (3 * (T.x : Field) ^ 2) ^ 2 - 8 * T.x * (T.y : Field) ^ 2
      ∧ (T.double.y : Field)
          = 3 * (T.x : Field) ^ 2 * (4 * T.x * (T.y : Field) ^ 2 - T.double.x)
            - 8 * (T.y : Field) ^ 4
      ∧ (T.double.z : Field) = 2 * T.y * T.z := by
  rw [double, if_neg h]
  have hle : ∀ x, x % fieldPrime ≤ fieldPrime := fun x => (mod_lt_fieldPrime x).le
  have hsub : ∀ x y, Modular.sub fieldPrime x y ≤ fieldPrime := fun x y =>
    (Modular.sub_lt fieldPrime_pos).le
  refine ⟨?_, ?_, ?_⟩
  · simp only [Modular.cast_sub (hle _), ZMod.natCast_mod, Nat.cast_mul]
    push_cast
    ring
  · simp only [Modular.cast_sub (hle _), Modular.cast_sub (hsub _ _), ZMod.natCast_mod,
      Nat.cast_mul]
    push_cast
    ring
  · simp only [ZMod.natCast_mod, Nat.cast_mul]
    push_cast
    ring

theorem double_lt (T : Jacobian) : T.double.y < fieldPrime ∧ T.double.z < fieldPrime := by
  rw [double]
  split
  · decide
  · exact ⟨Modular.sub_lt fieldPrime_pos, mod_lt_fieldPrime _⟩

/-- Whether two triples off infinity agree in one coordinate is seen over the field. -/
theorem scaled_eq_iff {x y u v : Nat} :
    x * (u * u % fieldPrime) % fieldPrime = y * (v * v % fieldPrime) % fieldPrime
      ↔ (x : Field) * (u : Field) ^ 2 = y * (v : Field) ^ 2 := by
  rw [← cast_inj (mod_lt_fieldPrime _) (mod_lt_fieldPrime _)]
  simp only [ZMod.natCast_mod, Nat.cast_mul, pow_two]

theorem scaled_eq_iff' {x y u v : Nat} :
    x * (u * u % fieldPrime) * u % fieldPrime = y * (v * v % fieldPrime) * v % fieldPrime
      ↔ (x : Field) * (u : Field) ^ 3 = y * (v : Field) ^ 3 := by
  rw [← cast_inj (mod_lt_fieldPrime _) (mod_lt_fieldPrime _)]
  simp only [ZMod.natCast_mod, Nat.cast_mul, pow_succ, pow_zero, one_mul, mul_assoc]

section Add

variable {T U : Jacobian} (hT : T.z ≠ 0) (hU : U.z ≠ 0)
include hT hU

/-- Adding points with one first coordinate. -/
theorem add_of_x_eq (hx : (T.x : Field) * (U.z : Field) ^ 2 = U.x * (T.z : Field) ^ 2) :
    T.add U = if (T.y : Field) * (U.z : Field) ^ 3 = U.y * (T.z : Field) ^ 3 then T.double
      else .infinity := by
  rw [add, if_neg hT, if_neg hU, if_pos (scaled_eq_iff.mpr hx)]
  simp only [scaled_eq_iff']

/-- Adding points with different first coordinates, over the field. -/
theorem cast_add (hx : (T.x : Field) * (U.z : Field) ^ 2 ≠ U.x * (T.z : Field) ^ 2)
    {d e : Field} (hd : d = U.x * (T.z : Field) ^ 2 - T.x * (U.z : Field) ^ 2)
    (he : e = U.y * (T.z : Field) ^ 3 - T.y * (U.z : Field) ^ 3) :
    ((T.add U).x : Field) = e ^ 2 - (d ^ 3 + 2 * (T.x * (U.z : Field) ^ 2 * d ^ 2))
      ∧ ((T.add U).y : Field)
          = e * (T.x * (U.z : Field) ^ 2 * d ^ 2 - (T.add U).x)
            - T.y * (U.z : Field) ^ 3 * d ^ 3
      ∧ ((T.add U).z : Field) = T.z * U.z * d := by
  rw [add, if_neg hT, if_neg hU, if_neg (mt scaled_eq_iff.mp hx)]
  have hle : ∀ x, x % fieldPrime ≤ fieldPrime := fun x => (mod_lt_fieldPrime x).le
  have hsub : ∀ x y, Modular.sub fieldPrime x y ≤ fieldPrime := fun x y =>
    (Modular.sub_lt fieldPrime_pos).le
  subst hd he
  refine ⟨?_, ?_, ?_⟩
  · simp only [Modular.cast_sub (hle _), ZMod.natCast_mod, Nat.cast_mul, Nat.cast_add]
    push_cast
    ring
  · simp only [Modular.cast_sub (hle _), Modular.cast_sub (hsub _ _), ZMod.natCast_mod,
      Nat.cast_mul, Nat.cast_add]
    push_cast
    ring
  · simp only [Modular.cast_sub (hle _), ZMod.natCast_mod, Nat.cast_mul]
    ring

end Add

theorem add_lt {T U : Jacobian} (hT : T.y < fieldPrime ∧ T.z < fieldPrime)
    (hU : U.y < fieldPrime ∧ U.z < fieldPrime) :
    (T.add U).y < fieldPrime ∧ (T.add U).z < fieldPrime := by
  by_cases hTz : T.z = 0
  · rw [add, if_pos hTz]
    exact hU
  by_cases hUz : U.z = 0
  · rw [add, if_neg hTz, if_pos hUz]
    exact hT
  by_cases hx : (T.x : Field) * (U.z : Field) ^ 2 = U.x * (T.z : Field) ^ 2
  · rw [add_of_x_eq hTz hUz hx]
    split
    · exact double_lt T
    · decide
  · rw [add, if_neg hTz, if_neg hUz, if_neg (mt scaled_eq_iff.mp hx)]
    exact ⟨Modular.sub_lt fieldPrime_pos, mod_lt_fieldPrime _⟩

end Jacobian

namespace Represents

theorem infinity : Represents .infinity 0 where
  y_lt := by decide
  z_lt := by decide
  z_eq_zero := by simp [Jacobian.infinity]
  coordinates h := absurd h.symm (Affine.Point.some_ne_zero _)

theorem ofPoint {P : Point} (h : P.onCurve = true) : Represents (.ofPoint P) P.element where
  y_lt := by
    simp only [Point.onCurve, Bool.and_eq_true, decide_eq_true_eq] at h
    exact h.1.2
  z_lt := show 1 < fieldPrime by decide
  z_eq_zero := by simp [Jacobian.ofPoint, Point.element, h]
  coordinates hA := by
    rw [Point.element, dif_pos h] at hA
    cases hA
    simp [Jacobian.ofPoint]

variable {T U : Jacobian} {A B : Group}

theorem cast_z_ne_zero (h : Represents T A) (hA : A ≠ 0) : (T.z : Field) ≠ 0 := by
  rw [Ne, cast_eq_zero h.z_lt, h.z_eq_zero]
  exact hA

/-- A triple off infinity stands for the point with the coordinates it gives. -/
theorem of_coordinates {x y : Field} {hP : curve.Nonsingular x y} (hlt : T.y < fieldPrime)
    (hz : T.z < fieldPrime) (hz0 : (T.z : Field) ≠ 0) (hx : (T.x : Field) = x * (T.z : Field) ^ 2)
    (hy : (T.y : Field) = y * (T.z : Field) ^ 3) : Represents T (.some x y hP) where
  y_lt := hlt
  z_lt := hz
  z_eq_zero := by
    rw [← cast_eq_zero hz]
    exact ⟨fun h0 => absurd h0 hz0, fun h0 => absurd h0 (Affine.Point.some_ne_zero _)⟩
  coordinates heq := by
    obtain ⟨rfl, rfl⟩ := Affine.Point.some.inj heq
    exact ⟨hx, hy⟩

/-- Doubling stands for adding an element to itself. -/
theorem double (h : Represents T A) : Represents T.double (A + A) := by
  by_cases hzero : T.z = 0 ∨ T.y = 0
  · -- At infinity, or on the first axis, where the tangent is vertical.
    have hA : A + A = 0 := by
      rcases A with _ | ⟨x, y, hP⟩
      · exact add_zero _
      · have hz := h.cast_z_ne_zero (Affine.Point.some_ne_zero _)
        have hzN : T.z ≠ 0 := mt h.z_eq_zero.mp (Affine.Point.some_ne_zero _)
        have hy : y * (T.z : Field) ^ 3 = 0 := by
          rw [← (h.coordinates rfl).2, hzero.resolve_left hzN, Nat.cast_zero]
        have hy0 := (mul_eq_zero.mp hy).resolve_right (pow_ne_zero 3 hz)
        apply Affine.Point.add_self_of_Y_eq
        rw [negY_eq, hy0, neg_zero]
    rw [hA, Jacobian.double, if_pos hzero]
    exact infinity
  · obtain ⟨hx3, hy3, hz3⟩ := Jacobian.cast_double hzero
    obtain ⟨hz, hy⟩ := not_or.mp hzero
    have hA0 : A ≠ 0 := mt h.z_eq_zero.mpr hz
    have hzF := h.cast_z_ne_zero hA0
    have hyF : (T.y : Field) ≠ 0 := mt (cast_eq_zero h.y_lt).mp hy
    have hz3F : (T.double.z : Field) ≠ 0 := by
      rw [hz3]
      exact mul_ne_zero (mul_ne_zero two_ne_zero_field hyF) hzF
    rcases A with _ | ⟨x, y, hP⟩
    · exact absurd rfl hA0
    obtain ⟨hxT, hyT⟩ := h.coordinates rfl
    have hy0 : y ≠ 0 := by
      rintro rfl
      exact hyF (by rw [hyT, zero_mul])
    rw [Affine.Point.add_self_of_Y_ne (ne_negY hy0)]
    have hslope := slope_tangent (x := x) hy0
    set l := curve.slope x x y y
    -- Both coordinates are those of the triple once the slope is cleared of its denominator.
    have hX : (T.double.x : Field) = (l ^ 2 - x - x) * (T.double.z : Field) ^ 2 := by
      rw [hx3, hz3, hxT, hyT]
      linear_combination -(T.z : Field) ^ 8 * (3 * x ^ 2 + 2 * y * l) * hslope
    refine of_coordinates (Jacobian.double_lt T).1 (Jacobian.double_lt T).2 hz3F ?_ ?_
    · rw [addX_eq, hX]
    · rw [addY_eq, hy3, hX, hz3, hxT, hyT]
      linear_combination
        -(T.z : Field) ^ 4 * (4 * x * y ^ 2 * (T.z : Field) ^ 8
          - (l ^ 2 - x - x) * (2 * y * (T.z : Field) ^ 4) ^ 2) * hslope

/-- Adding triples stands for adding elements. -/
theorem add (h : Represents T A) (g : Represents U B) : Represents (T.add U) (A + B) := by
  -- The cases are those of the program: either summand at infinity, then the coordinates.
  rcases A with _ | ⟨x₁, y₁, hP⟩
  · rw [Jacobian.add, if_pos (h.z_eq_zero.mpr rfl)]
    exact (zero_add B).symm ▸ g
  have hTz := mt h.z_eq_zero.mp (Affine.Point.some_ne_zero hP)
  rcases B with _ | ⟨x₂, y₂, hQ⟩
  · rw [Jacobian.add, if_neg hTz, if_pos (g.z_eq_zero.mpr rfl)]
    exact (add_zero (Affine.Point.some x₁ y₁ hP)).symm ▸ h
  have hUz := mt g.z_eq_zero.mp (Affine.Point.some_ne_zero hQ)
  have hTzF := h.cast_z_ne_zero (Affine.Point.some_ne_zero hP)
  have hUzF := g.cast_z_ne_zero (Affine.Point.some_ne_zero hQ)
  obtain ⟨hxT, hyT⟩ := h.coordinates rfl
  obtain ⟨hxU, hyU⟩ := g.coordinates rfl
  have hlt := Jacobian.add_lt ⟨h.y_lt, h.z_lt⟩ ⟨g.y_lt, g.z_lt⟩
  -- The tests compare the coordinates themselves, both scaled by the same power.
  have hxeq : (T.x : Field) * (U.z : Field) ^ 2 = U.x * (T.z : Field) ^ 2 ↔ x₁ = x₂ := by
    rw [hxT, hxU, mul_assoc, mul_assoc, mul_comm ((U.z : Field) ^ 2)]
    exact mul_left_inj' (mul_ne_zero (pow_ne_zero 2 hTzF) (pow_ne_zero 2 hUzF))
  have hyeq : (T.y : Field) * (U.z : Field) ^ 3 = U.y * (T.z : Field) ^ 3 ↔ y₁ = y₂ := by
    rw [hyT, hyU, mul_assoc, mul_assoc, mul_comm ((U.z : Field) ^ 3)]
    exact mul_left_inj' (mul_ne_zero (pow_ne_zero 3 hTzF) (pow_ne_zero 3 hUzF))
  by_cases hx : x₁ = x₂
  · rw [Jacobian.add_of_x_eq hTz hUz (hxeq.mpr hx)]
    by_cases hy : y₁ = y₂
    -- One point twice, or a point and its opposite.
    · subst hx hy
      rw [if_pos (hyeq.mpr rfl)]
      exact h.double
    · rw [if_neg (mt hyeq.mp hy),
        Affine.Point.add_of_Y_eq hx ((Affine.Y_eq_of_X_eq hP.1 hQ.1 hx).resolve_left hy)]
      exact infinity
  · obtain ⟨hx3, hy3, hz3⟩ := Jacobian.cast_add hTz hUz (mt hxeq.mp hx) rfl rfl
    rw [Affine.Point.add_of_X_ne hx]
    have hslope := slope_chord y₁ y₂ hx
    -- The slope is named apart, since the point of the goal carries a proof about it.
    obtain ⟨l, hl⟩ : ∃ l, curve.slope x₁ x₂ y₁ y₂ = l := ⟨_, rfl⟩
    rw [hl] at hslope
    have hy1 : y₁ = y₂ + l * (x₁ - x₂) := by
      rw [hslope]
      ring
    have hX : ((T.add U).x : Field) = (l ^ 2 - x₁ - x₂) * ((T.add U).z : Field) ^ 2 := by
      rw [hx3, hz3, hxT, hyT, hxU, hyU, hy1]
      ring
    refine of_coordinates hlt.1 hlt.2 ?_ ?_ ?_
    · rw [hz3]
      exact mul_ne_zero (mul_ne_zero hTzF hUzF) (sub_ne_zero.mpr (Ne.symm (mt hxeq.mp hx)))
    · rw [addX_eq, hl, hX]
    · rw [addY_eq, hl, hy3, hX, hz3, hxT, hyT, hxU, hyU, hy1]
      ring

/-- Doubling and adding along the binary digits of `k` stands for the multiple by `k`. -/
theorem smul (h : Represents T A) (k : Nat) : Represents (.smul k T) (k • A) := by
  -- On `k`, along the recursion: half of it, doubled, and one more for an odd `k`.
  induction k using Nat.strongRecOn with
  | _ k ih =>
      rw [Jacobian.smul]
      split
      · next h0 =>
        subst h0
        rw [zero_nsmul]
        exact infinity
      · next h0 =>
        have htwice := (ih (k / 2) (by omega)).double
        rw [← add_nsmul] at htwice
        split
        · next heven =>
          rwa [show k / 2 + k / 2 = k by omega] at htwice
        · next hodd =>
          have hsum := htwice.add h
          rwa [← succ_nsmul, show k / 2 + k / 2 + 1 = k by omega] at hsum

/-! ## Back to affine coordinates -/

theorem toPoint?_zero (h : Represents T 0) : T.toPoint? = none := by
  rw [Jacobian.toPoint?, if_pos (h.z_eq_zero.mpr rfl)]

theorem toPoint?_some {x y : Field} {hP : curve.Nonsingular x y}
    (h : Represents T (.some x y hP)) : T.toPoint? = some ⟨x.val, y.val⟩ := by
  have hz := h.cast_z_ne_zero (Affine.Point.some_ne_zero hP)
  obtain ⟨hx, hy⟩ := h.coordinates rfl
  have hval : ∀ {a : Nat} {b : Field}, (a : Field) = b → a % fieldPrime = b.val := by
    rintro a _ rfl
    rw [ZMod.val_natCast]
  rw [Jacobian.toPoint?, if_neg (mt h.z_eq_zero.mp (Affine.Point.some_ne_zero hP))]
  simp only [Option.some.injEq, Point.mk.injEq]
  refine ⟨hval ?_, hval ?_⟩
  · simp only [Nat.cast_mul, ZMod.natCast_mod, Modular.cast_inverse (by decide : fieldPrime ≠ 2)]
    rw [hx]
    field_simp
  · simp only [Nat.cast_mul, ZMod.natCast_mod, Modular.cast_inverse (by decide : fieldPrime ≠ 2)]
    rw [hy]
    field_simp

theorem toPoint?_eq_none_iff (h : Represents T A) : T.toPoint? = none ↔ A = 0 := by
  rw [← h.z_eq_zero, Jacobian.toPoint?]
  split
  · next h0 => simp [h0]
  · next h0 => simp [h0]

/-- Affine coordinates of a triple are those of a point of the curve, which stands for the
same element. -/
theorem element_of_toPoint? {Q : Point} (h : Represents T A) (hQ : T.toPoint? = some Q) :
    Q.onCurve = true ∧ Q.element = A := by
  rcases A with _ | ⟨x, y, hP⟩
  · rw [h.toPoint?_zero] at hQ
    cases hQ
  rw [h.toPoint?_some, Option.some.injEq] at hQ
  subst hQ
  have hon : (⟨x.val, y.val⟩ : Point).onCurve = true := by
    have hcurve := (equation_iff x y).mp hP.1
    have hmod : y.val * y.val % fieldPrime = (x.val * x.val * x.val + 7) % fieldPrime := by
      rw [← ZMod.natCast_eq_natCast_iff']
      push_cast
      rw [ZMod.natCast_zmod_val, ZMod.natCast_zmod_val, ← pow_two, hcurve]
      ring
    simp only [Point.onCurve, Point.curveRhs, hmod, ZMod.val_lt, decide_true, beq_self_eq_true,
      Bool.and_self]
  refine ⟨hon, ?_⟩
  rw [Point.element, dif_pos hon]
  simp only [ZMod.natCast_zmod_val]

end Represents

theorem Point.element_of_smul? {P Q : Point} {k : Nat} (hP : P.onCurve = true)
    (hQ : P.smul? k = some Q) : Q.onCurve = true ∧ Q.element = k • P.element :=
  ((Represents.ofPoint hP).smul k).element_of_toPoint? hQ

/-! ## The generator -/

theorem Point.onCurve_generator : Point.generator.onCurve = true := by decide +kernel

/-- Off infinity, and nothing after `groupOrder` steps, which is a prime. -/
theorem addOrderOf_generator : addOrderOf Point.generator.element = groupOrder := by
  have hgen := Represents.ofPoint Point.onCurve_generator
  apply addOrderOf_eq_prime
  · rw [← (hgen.smul groupOrder).toPoint?_eq_none_iff]
    show Point.smul? groupOrder .generator = none
    decide +kernel
  · rw [Ne, ← hgen.z_eq_zero]
    exact Nat.one_ne_zero

end SecpKey
