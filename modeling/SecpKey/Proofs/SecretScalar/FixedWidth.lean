/-
  SecpKey.Proofs.SecretScalar.FixedWidth

  A live container in a fixed width.  What is written depends on the scalar alone, not on
  the bytes it is held in: leading zeros do not count, neither for the result nor for
  whether there is one.
-/
import SecpKey.SecretScalar
import SecpKey.Proofs.Except
import SecpKey.Proofs.Width

namespace SecpKey

namespace SecretScalar

/-- The scalar in a width, when it fits; otherwise a refusal that does not show it. -/
theorem toBytes_live (b : Bytes) (width : Nat) :
    (live b).toBytes width
      = if Bytes.toNat b < 256 ^ width then .ok (Bytes.ofNat width (Bytes.toNat b))
        else .error (.encoding .secretTooLarge) := by
  have htoBytes : (live b).toBytes width
      = if width < Bytes.byteLength (Bytes.toNat b) then .error (.encoding .secretTooLarge)
        else .ok (Bytes.ofNat width (Bytes.toNat b)) := rfl
  rw [htoBytes]
  by_cases h : Bytes.toNat b < 256 ^ width
  · rw [if_neg (Nat.not_lt.mpr ((Bytes.byteLength_le_iff _ _).mpr h)), if_pos h]
  · rw [if_pos (Nat.not_le.mp (mt (Bytes.byteLength_le_iff _ _).mp h)), if_neg h]

/-- The 32 bytes that the scalar is exported in. -/
theorem toBytes_of_fits {b : Bytes} (h : Bytes.toNat b < 256 ^ scalarSize) :
    (live b).toBytes scalarSize = .ok (Bytes.ofNat scalarSize (Bytes.toNat b)) := by
  rw [toBytes_live, if_pos h]

/-- A scalar in range fits. -/
theorem toBytes_scalarSize {b : Bytes} (h : Bytes.toNat b < groupOrder) :
    (live b).toBytes scalarSize = .ok (Bytes.ofNat scalarSize (Bytes.toNat b)) :=
  toBytes_of_fits (Nat.lt_trans h (by decide))

theorem toNat_ofNat_scalarSize {d : Nat} (h : d < groupOrder) :
    Bytes.toNat (Bytes.ofNat scalarSize d) = d :=
  Bytes.toNat_ofNat (Nat.lt_trans h (by decide))

end SecretScalar

theorem isValidScalar_natCast {d : Nat} :
    isValidScalar d = true ↔ 1 ≤ d ∧ d < groupOrder := by
  simp only [isValidScalar, Bool.and_eq_true, decide_eq_true_eq]
  omega

end SecpKey
