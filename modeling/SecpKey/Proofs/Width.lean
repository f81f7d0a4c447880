/-
  SecpKey.Proofs.Width

  Numbers in a fixed width.  At every width the numbers that fit are in bijection with the
  byte strings of that width, in the same order (`widthBijection_encodeInt`).  A machine adds
  one thing to this, which depends on the width alone: beyond its limits it holds no string
  (`encodeWithin_natCast`).  Zero bytes in front of a string do not count, neither for its
  number nor for the width that the number needs (`byteLength_toNat_eq`).
-/
import SecpKey.Proofs.BigEndian

namespace SecpKey

namespace Bytes

/-! ## Order -/

/-- The leading digits decide unless they are equal: what is behind one is worth less. -/
theorem leading_lt_iff {x y low low' scale : Nat} (h : low < scale) (h' : low' < scale) :
    x * scale + low < y * scale + low' ↔ x < y ∨ x = y ∧ low < low' := by
  have hstep {m n : Nat} (hmn : m < n) : m * scale + scale ≤ n * scale := by
    rw [← Nat.succ_mul]
    exact Nat.mul_le_mul_right scale hmn
  rcases Nat.lt_trichotomy x y with hxy | rfl | hyx
  · have hle := hstep hxy
    omega
  · omega
  · have hle := hstep hyx
    omega

/-- Byte strings of one length are in the order of their numbers. -/
theorem toNat_lt_toNat_iff {a b : Bytes} (h : a.length = b.length) :
    toNat a < toNat b ↔ a < b := by
  induction a generalizing b with
  | nil =>
      obtain rfl := List.eq_nil_of_length_eq_zero h.symm
      exact iff_of_false (Nat.lt_irrefl 0) (List.not_lt_nil [])
  | cons x as ih =>
      cases b with
      | nil => cases h
      | cons y bs =>
          have hlen : as.length = bs.length := Nat.succ.inj h
          have ha : toNat as < 256 ^ bs.length := hlen ▸ toNat_lt as
          rw [toNat_cons, toNat_cons, hlen, leading_lt_iff ha (toNat_lt bs), ih hlen,
            List.cons_lt_cons_iff, UInt8.lt_iff_toNat_lt, UInt8.toNat_inj]

theorem toNat_le_toNat_iff {a b : Bytes} (h : a.length = b.length) :
    toNat a ≤ toNat b ↔ a ≤ b := by
  rw [← Nat.not_lt, toNat_lt_toNat_iff h.symm, List.not_lt]

theorem ofNat_inj {width v w : Nat} (hv : v < 256 ^ width) (hw : w < 256 ^ width) :
    ofNat width v = ofNat width w ↔ v = w := by
  constructor
  · intro h
    rw [← toNat_ofNat hv, h, toNat_ofNat hw]
  · rintro rfl
    rfl

/-! ## Leading zeros -/

/-- The number of zero bytes that a byte string starts with. -/
def leadingZeros (b : Bytes) : Nat := (b.takeWhile (· == 0)).length

/-- A number needs the bytes that are left of its string without the zeros in front. -/
theorem byteLength_toNat_eq (b : Bytes) : byteLength (toNat b) = b.length - leadingZeros b := by
  induction b with
  | nil => rfl
  | cons x rest ih =>
      rw [leadingZeros, List.takeWhile_cons]
      by_cases hx : x = 0
      · have hvalue : toNat (x :: rest) = toNat rest := by
          rw [toNat_cons, hx, UInt8.toNat_zero, Nat.zero_mul, Nat.zero_add]
        rw [hvalue, ih, if_pos (beq_iff_eq.mpr hx), List.length_cons, List.length_cons,
          Nat.add_sub_add_right, leadingZeros]
      · rw [byteLength_toNat (b := x :: rest) hx, if_neg (mt beq_iff_eq.mp hx), List.length_nil,
          Nat.sub_zero]

end Bytes

/-! ## Checked encodings -/

theorem encodeInt_natCast (value width : Nat) :
    encodeInt value width
      = if value < 256 ^ width then .ok (Bytes.ofNat width value) else .error .tooLarge := by
  have hlen : byteLength (value : Int) = Bytes.byteLength value := rfl
  rw [encodeInt, if_neg (by omega), if_neg (by omega), hlen, Int.toNat_natCast, Int.toNat_natCast]
  simp only [Bytes.byteLength_le_iff]

/-! ## Limits -/

/-- Why there is no byte string of a width beyond the limits. -/
def excessFault (width : Int) : WidthFault :=
  if indexLimit ≤ width then .unindexable
  else if sizeLimit ≤ width then .oversized
  else .exhausted

section

variable {memory : Memory}

theorem admitWidth_of_le {width : Int} (h : memory.limit ≤ width) :
    admitWidth memory width = .error (excessFault width) := by
  have hneg : ¬ width < 0 := Int.not_lt.mpr (Int.le_trans memory.nonneg h)
  have hlow : ¬ width < -indexLimit := by
    simp only [indexLimit]
    omega
  simp only [admitWidth, excessFault, hlow, or_false, if_neg hneg, if_pos h]
  split
  · rfl
  · split <;> rfl

/-- Beyond the limits no value is encoded, whatever it is. -/
theorem encodeWithin_of_le {width : Int} (value : Int) (h : memory.limit ≤ width) :
    encodeWithin memory value width = .error (excessFault width) := by
  rw [encodeWithin, admitWidth_of_le h]
  rfl

theorem encodeWithin_natCast (value : Nat) {width : Nat} (h : (width : Int) < memory.limit) :
    encodeWithin memory value width
      = if value < 256 ^ width then .ok (Bytes.ofNat width value) else .error .tooLarge := by
  rw [encodeWithin_eq (Int.natCast_nonneg width) h, encodeInt_natCast]

end

/-! ## The bijection -/

/-- The numbers that fit a width and the byte strings of that width correspond: one way by
`encode`, the other way by `Bytes.toNat`. -/
structure WidthBijection (encode : Int → Int → Except WidthFault Bytes) (width : Nat) : Prop where
  encodes_iff (value : Nat) : (∃ b, encode value width = .ok b) ↔ value < 256 ^ width
  fits_iff (value : Nat) : value < 256 ^ width ↔ byteLength value ≤ width
  length_eq {value : Nat} {b : Bytes} : encode value width = .ok b → b.length = width
  toNat_eq {value : Nat} {b : Bytes} : encode value width = .ok b → Bytes.toNat b = value
  encode_toNat {b : Bytes} : b.length = width → encode (Bytes.toNat b) width = .ok b
  /-- Byte strings are compared at the first place where they differ. -/
  le_iff {v w : Nat} {a b : Bytes} : encode v width = .ok a → encode w width = .ok b →
    (v ≤ w ↔ a ≤ b)

/-- Whatever writes the digits of the numbers that fit and nothing else is such a bijection. -/
theorem widthBijection_of_eq {encode : Int → Int → Except WidthFault Bytes} {width : Nat}
    (h : ∀ value : Nat, encode value width
      = if value < 256 ^ width then .ok (Bytes.ofNat width value) else .error .tooLarge) :
    WidthBijection encode width := by
  have hok {value : Nat} {b : Bytes} :
      encode value width = .ok b ↔ value < 256 ^ width ∧ Bytes.ofNat width value = b := by
    rw [h]
    split
    · next hlt => rw [Except.ok.injEq, and_iff_right hlt]
    · next hge => exact iff_of_false nofun fun hb => hge hb.1
  have hlength {value : Nat} {b : Bytes} (hb : encode value width = .ok b) : b.length = width := by
    obtain ⟨-, rfl⟩ := hok.mp hb
    exact Bytes.ofNat_length width value
  have hvalue {value : Nat} {b : Bytes} (hb : encode value width = .ok b) :
      Bytes.toNat b = value := by
    obtain ⟨hlt, rfl⟩ := hok.mp hb
    exact Bytes.toNat_ofNat hlt
  constructor
  case encodes_iff =>
    intro value
    simp only [hok, exists_and_left, exists_eq', and_true]
  case fits_iff =>
    intro value
    exact (Bytes.byteLength_le_iff value width).symm
  case length_eq => exact hlength
  case toNat_eq => exact hvalue
  case encode_toNat =>
    rintro b rfl
    exact hok.mpr ⟨Bytes.toNat_lt b, Bytes.ofNat_toNat b⟩
  case le_iff =>
    intro v w a b ha hb
    rw [← hvalue ha, ← hvalue hb, Bytes.toNat_le_toNat_iff ((hlength ha).trans (hlength hb).symm)]

theorem widthBijection_encodeInt (width : Nat) : WidthBijection encodeInt width :=
  widthBijection_of_eq fun value => encodeInt_natCast value width

theorem widthBijection_encodeWithin {memory : Memory} {width : Nat}
    (h : (width : Int) < memory.limit) : WidthBijection (encodeWithin memory) width :=
  widthBijection_of_eq fun value => encodeWithin_natCast value h

/-- Numbers and byte strings of a width correspond, on every machine as far as it holds such
strings, and zero bytes in front of a string do not count. -/
theorem numbers_biject_bytes (width : Nat) :
    WidthBijection encodeInt width
      ∧ (∀ memory : Memory, (width : Int) < memory.limit →
          WidthBijection (encodeWithin memory) width)
      ∧ (∀ memory : Memory, memory.limit ≤ width → ∀ value : Int,
          encodeWithin memory value width = .error (excessFault width))
      ∧ ∀ b : Bytes, byteLength (Bytes.toNat b) = b.length - Bytes.leadingZeros b
          ∧ ∀ zeros, Bytes.toNat (List.replicate zeros 0 ++ b) = Bytes.toNat b := by
  refine ⟨widthBijection_encodeInt width, fun memory => widthBijection_encodeWithin, ?_, ?_⟩
  · intro memory hle value
    exact encodeWithin_of_le value hle
  · intro b
    exact ⟨Bytes.byteLength_toNat_eq b, fun zeros => Bytes.toNat_replicate_zero zeros b⟩

/-- On a machine that holds whatever there may be, and for a width that is no index. -/
theorem numbers_biject_bytes_two :
    ((2 : Nat) : Int) < Memory.full.limit ∧ encodeWithin .full 258 2 = .ok [1, 2]
      ∧ ¬ (∃ b, encodeWithin .full 65536 2 = .ok b)
      ∧ Memory.full.limit ≤ indexLimit.toNat
      ∧ encodeWithin .full 258 indexLimit.toNat = .error (excessFault indexLimit.toNat)
      ∧ byteLength (Bytes.toNat [0, 0, 1, 2]) = [0, 0, 1, 2].length - 2 := by
  have htwo : WidthBijection (encodeWithin .full) 2 :=
    (numbers_biject_bytes 2).2.1 .full (by decide)
  have hmissing : ¬ ∃ b, encodeWithin .full (65536 : Nat) (2 : Nat) = .ok b := by
    rw [htwo.encodes_iff]
    decide
  exact ⟨by decide, htwo.encode_toNat (b := [1, 2]) rfl, hmissing, by decide,
    (numbers_biject_bytes indexLimit.toNat).2.2.1 .full (by decide) 258,
    ((numbers_biject_bytes 2).2.2.2 [0, 0, 1, 2]).1⟩

/-- One fits every width but the first, and still not even a machine that holds whatever there
may be has an encoding of it in a width that is no index. -/
theorem encodeWithin_indexLimit :
    1 < 256 ^ indexLimit.toNat ∧ byteLength 1 ≤ indexLimit.toNat
      ∧ encodeWithin .full 1 indexLimit = .error .unindexable :=
  ⟨Nat.one_lt_pow (by decide) (by decide), by decide, by decide⟩

end SecpKey
