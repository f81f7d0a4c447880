/-
  SecpKey.Proofs.BigEndian

  Big-endian numbers.  `toNat` and `ofNat` are inverse to each other at a fixed width
  (`toNat_ofNat`, `ofNat_toNat`), `byteLength` is the least width that holds a value
  (`byteLength_le_iff`), and the shortest form is the one without a zero byte in front
  (`ofNatMinimal_toNat`).  The element readers rest on these.
-/
import SecpKey.Bytes
import Mathlib.Data.List.Induction
import Mathlib.Tactic.Ring

namespace SecpKey.Bytes

/-! ## Reading digits -/

/-- A fold that starts from `acc` reads the digits behind those of `acc`. -/
theorem foldl_digits (acc : Nat) (b : Bytes) :
    b.foldl (fun acc x => acc * 256 + x.toNat) acc = acc * 256 ^ b.length + toNat b := by
  induction b generalizing acc with
  | nil => simp
  | cons x rest ih =>
      have hcons : toNat (x :: rest) = (0 * 256 + x.toNat) * 256 ^ rest.length + toNat rest :=
        ih (0 * 256 + x.toNat)
      rw [List.foldl_cons, ih, hcons, List.length_cons, Nat.pow_succ]
      ring

theorem toNat_cons (x : UInt8) (b : Bytes) :
    toNat (x :: b) = x.toNat * 256 ^ b.length + toNat b := by
  rw [toNat, List.foldl_cons, foldl_digits]
  simp

theorem toNat_append (a b : Bytes) : toNat (a ++ b) = toNat a * 256 ^ b.length + toNat b := by
  rw [toNat, List.foldl_append, foldl_digits, ← toNat]

theorem toNat_append_singleton (b : Bytes) (x : UInt8) :
    toNat (b ++ [x]) = toNat b * 256 + x.toNat := by
  rw [toNat_append]
  simp [toNat_cons]

theorem toNat_lt (b : Bytes) : toNat b < 256 ^ b.length := by
  induction b with
  | nil => simp
  | cons x rest ih =>
      have hx : x.toNat < 256 := x.toNat_lt
      have hle : (x.toNat + 1) * 256 ^ rest.length ≤ 256 * 256 ^ rest.length :=
        Nat.mul_le_mul_right _ hx
      rw [toNat_cons, List.length_cons, Nat.pow_succ, Nat.mul_comm (256 ^ rest.length)]
      rw [Nat.add_mul] at hle
      omega

@[simp] theorem toNat_replicate_zero (k : Nat) (b : Bytes) :
    toNat (List.replicate k 0 ++ b) = toNat b := by
  induction k with
  | zero => simp
  | succ k ih => rw [List.replicate_succ, List.cons_append, toNat_cons, ih]; simp

theorem length_padLeft {width : Nat} {b : Bytes} (h : b.length ≤ width) :
    (padLeft width b).length = width := by
  rw [padLeft, List.length_append, List.length_replicate]
  omega

@[simp] theorem toNat_padLeft (width : Nat) (b : Bytes) : toNat (padLeft width b) = toNat b :=
  toNat_replicate_zero _ b

/-! ## Writing digits -/

theorem digitsBefore_eq_append (width value : Nat) (tail : Bytes) :
    digitsBefore width value tail = ofNat width value ++ tail := by
  induction width generalizing value tail with
  | zero => rfl
  | succ width ih =>
      rw [ofNat, digitsBefore, digitsBefore, ih, ih _ [UInt8.ofNat value]]
      simp

/-- The last digit comes off the end. -/
theorem ofNat_succ (width value : Nat) :
    ofNat (width + 1) value = ofNat width (value / 256) ++ [UInt8.ofNat value] := by
  rw [ofNat, digitsBefore, digitsBefore_eq_append]

/-- Writing keeps the low digits. -/
theorem toNat_ofNat_mod (width value : Nat) : toNat (ofNat width value) = value % 256 ^ width := by
  induction width generalizing value with
  | zero =>
      rw [Nat.pow_zero, Nat.mod_one]
      rfl
  | succ width ih =>
      rw [ofNat_succ, toNat_append_singleton, ih, Nat.pow_succ, Nat.mul_comm (256 ^ width),
        Nat.mod_mul, UInt8.toNat_ofNat']
      omega

theorem toNat_ofNat {width value : Nat} (h : value < 256 ^ width) :
    toNat (ofNat width value) = value := by
  rw [toNat_ofNat_mod, Nat.mod_eq_of_lt h]

/-- Bytes are the digits of their number at their own length. -/
theorem ofNat_toNat (b : Bytes) : ofNat b.length (toNat b) = b := by
  -- From the end, where the writer puts the last digit.
  induction b using List.reverseRecOn with
  | nil => rfl
  | append_singleton b x ih =>
      have hx : x.toNat < 256 := x.toNat_lt
      have hdiv : (toNat b * 256 + x.toNat) / 256 = toNat b := by omega
      have hlow : UInt8.ofNat (toNat b * 256 + x.toNat) = x := by
        rw [← UInt8.toNat_inj, UInt8.toNat_ofNat']
        omega
      rw [List.length_append, List.length_singleton, toNat_append_singleton, ofNat_succ, hdiv, ih,
        hlow]

/-! ## Widths -/

/-- `byteLength` is the least width that holds the value. -/
theorem byteLength_le_iff (value width : Nat) : byteLength value ≤ width ↔ value < 256 ^ width := by
  have hpow : 256 ^ width = 2 ^ (8 * width) := by rw [Nat.pow_mul]
  unfold byteLength
  by_cases h0 : value = 0
  · subst h0
    simp
  · rw [if_neg h0, hpow, ← Nat.log2_lt h0]
    omega

theorem byteLength_pos {value : Nat} (h : value ≠ 0) : 0 < byteLength value := by
  rw [byteLength, if_neg h]
  omega

theorem byteLength_toNat_le (b : Bytes) : byteLength (toNat b) ≤ b.length :=
  (byteLength_le_iff _ _).mpr (toNat_lt b)

/-- A byte string that does not start with zero is no longer than its value needs. -/
theorem byteLength_toNat {b : Bytes} (h : b.headD 0 ≠ 0) : byteLength (toNat b) = b.length := by
  cases b with
  | nil => exact absurd rfl h
  | cons x rest =>
      -- One byte less would hold less than the first digit alone is worth.
      apply Nat.le_antisymm (byteLength_toNat_le _)
      by_contra hlt
      have hle : byteLength (toNat (x :: rest)) ≤ rest.length := by
        rw [List.length_cons] at hlt
        omega
      rw [byteLength_le_iff, toNat_cons] at hle
      have hx : 1 ≤ x.toNat := by
        rw [Nat.one_le_iff_ne_zero]
        exact fun h0 => h (UInt8.toNat_inj.mp h0)
      have := Nat.mul_le_mul_right (256 ^ rest.length) hx
      omega

/-! ## The shortest form -/

theorem ofNatMinimal_length (value : Nat) :
    (ofNatMinimal value).length = max (byteLength value) 1 := ofNat_length _ _

theorem ofNatMinimal_ne_nil (value : Nat) : ofNatMinimal value ≠ [] := by
  have h := ofNatMinimal_length value
  intro h0
  rw [h0, List.length_nil] at h
  omega

theorem toNat_ofNatMinimal (value : Nat) : toNat (ofNatMinimal value) = value :=
  toNat_ofNat ((byteLength_le_iff _ _).mp (Nat.le_max_left _ _))

/-- Bytes that do not start with zero are the shortest form of their value. -/
theorem ofNatMinimal_toNat {b : Bytes} (h : b.headD 0 ≠ 0) : ofNatMinimal (toNat b) = b := by
  have hpos : b.length ≠ 0 := by
    intro h0
    rw [List.eq_nil_of_length_eq_zero h0] at h
    exact h rfl
  rw [ofNatMinimal, byteLength_toNat h, Nat.max_eq_left (by omega), ofNat_toNat]

/-- The shortest form of a positive number does not start with zero. -/
theorem headD_ofNatMinimal_ne_zero {value : Nat} (h : value ≠ 0) :
    (ofNatMinimal value).headD 0 ≠ 0 := by
  have hlen : (ofNatMinimal value).length = byteLength value := by
    rw [ofNatMinimal_length]
    have := byteLength_pos h
    omega
  intro h0
  cases hb : ofNatMinimal value with
  | nil => exact ofNatMinimal_ne_nil value hb
  | cons x rest =>
      rw [hb, List.headD_cons] at h0
      -- Without the zero in front, the rest would be shorter than the value needs.
      have hval : toNat rest = value := by
        have := toNat_ofNatMinimal value
        rwa [hb, h0, toNat_cons, UInt8.toNat_zero, Nat.zero_mul, Nat.zero_add] at this
      have hle := byteLength_toNat_le rest
      rw [hval] at hle
      rw [hb, List.length_cons] at hlen
      omega

end SecpKey.Bytes
