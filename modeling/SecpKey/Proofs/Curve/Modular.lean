/-
  SecpKey.Proofs.Curve.Modular

  Arithmetic on representatives is that of the residues: repeated squaring computes the
  power, and with it the inverse modulo a prime.
-/
import SecpKey.Curve.Modular
import Mathlib.FieldTheory.Finite.Basic

namespace SecpKey.Modular

/-- Repeated squaring computes the power. -/
theorem pow_eq (m base exponent : Nat) : pow m base exponent = base ^ exponent % m := by
  induction exponent using Nat.strongRecOn generalizing base with
  | _ e ih =>
    rw [pow]
    split
    · next h => simp [h]
    · next h =>
      have hlt : e / 2 < e := by omega
      simp only [ih (e / 2) hlt]
      have hsq : (base * base % m) ^ (e / 2) % m = base ^ (2 * (e / 2)) % m := by
        rw [← Nat.pow_mod, Nat.pow_mul, Nat.pow_two]
      split
      · next heven =>
        rw [hsq]
        congr 2
        omega
      · next hodd =>
        rw [hsq, Nat.mul_mod_mod, Nat.mul_comm, ← Nat.pow_succ]
        congr 2
        omega

variable {m : Nat}

theorem cast_sub {x y : Nat} (h : y ≤ m) : ((sub m x y : Nat) : ZMod m) = x - y := by
  rw [sub, ZMod.natCast_mod, Nat.cast_add, Nat.cast_sub h, ZMod.natCast_self]
  ring

theorem sub_lt {x y : Nat} (h : 0 < m) : sub m x y < m := Nat.mod_lt _ h

/-- The power is the inverse, by Fermat. -/
theorem cast_inverse [hm : Fact m.Prime] (h : m ≠ 2) (x : Nat) :
    ((inverse m x : Nat) : ZMod m) = (x : ZMod m)⁻¹ := by
  have h2 : 2 ≤ m := hm.out.two_le
  rw [inverse, pow_eq, ZMod.natCast_mod, Nat.cast_pow, ZMod.natCast_mod]
  by_cases hx : (x : ZMod m) = 0
  · rw [hx, inv_zero, zero_pow (by omega)]
  · apply eq_inv_of_mul_eq_one_left
    rw [← pow_succ, show m - 2 + 1 = m - 1 by omega]
    exact ZMod.pow_card_sub_one_eq_one hx

end SecpKey.Modular
