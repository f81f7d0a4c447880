/-
  SecpKey.Proofs.SecretScalar.Conversion

  Between containers, numbers and bytes of any width.  A live container is written exactly in
  the widths from its natural size on, and refuses the others with a failure of its own
  (`toWidth_live`): the comparison with the natural size leaves nothing for the encoding to
  refuse but what the machine does not hold, whatever its memory.  What was written fills a
  container with the same scalar again, and so does a number, unless it is negative.
-/
import SecpKey.Proofs.SecretScalar.FixedWidth
import Mathlib.Order.Bounds.Defs

namespace SecpKey.SecretScalar

variable {memory : Memory} {data : Bytes} {width : Int}

/-! ## Writing -/

theorem naturalSize_live (data : Bytes) :
    (live data).naturalSize = .ok (Bytes.byteLength (Bytes.toNat data)) := rfl

/-- The natural size is compared first, and what it lets through is encoded. -/
theorem toWidth_live (memory : Memory) (data : Bytes) (width : Int) :
    (live data).toWidth memory (.whole width)
      = if width < Bytes.byteLength (Bytes.toNat data) then .error (.encoding .secretTooLarge)
        else (encodeWithin memory (Bytes.toNat data) width).mapError
          (fun fault => .fault (.width fault)) := by
  by_cases h : width < Bytes.byteLength (Bytes.toNat data)
  · rw [if_pos h]
    exact if_pos (decide_eq_true h)
  · rw [if_neg h]
    exact if_neg (by simpa [Width.exceededBy] using h)

theorem toWidth_of_lt (h : width < Bytes.byteLength (Bytes.toNat data)) :
    (live data).toWidth memory (.whole width) = .error (.encoding .secretTooLarge) := by
  rw [toWidth_live, if_pos h]

theorem toWidth_of_le (h : Bytes.byteLength (Bytes.toNat data) ≤ width)
    (hw : width < memory.limit) :
    (live data).toWidth memory (.whole width)
      = .ok (Bytes.ofNat width.toNat (Bytes.toNat data)) := by
  obtain ⟨w, rfl⟩ := Int.eq_ofNat_of_zero_le (Int.le_trans (Int.natCast_nonneg _) h)
  have hfits : Bytes.toNat data < 256 ^ w := by
    rw [← Bytes.byteLength_le_iff]
    exact Int.ofNat_le.mp h
  rw [toWidth_live, if_neg (Int.not_lt.mpr h), encodeWithin_natCast _ hw, if_pos hfits,
    Int.toNat_natCast]
  rfl

theorem toWidth_of_exceeds (h : Bytes.byteLength (Bytes.toNat data) ≤ width)
    (hw : memory.limit ≤ width) :
    (live data).toWidth memory (.whole width) = .error (.fault (.width (excessFault width))) := by
  rw [toWidth_live, if_neg (Int.not_lt.mpr h), encodeWithin_of_le _ hw]
  rfl

/-- A machine that holds as many bytes writes a container, live or not, as any other does. -/
theorem toWidth_eq_toBytes (s : SecretScalar) {length : Nat} (h : (length : Int) < memory.limit) :
    s.toWidth memory (.whole length) = s.toBytes length := by
  cases s with
  | wiped => rfl
  | live data =>
      rw [toBytes_live]
      by_cases hfits : Bytes.toNat data < 256 ^ length
      · have hle := (Bytes.byteLength_le_iff _ _).mpr hfits
        rw [if_pos hfits, toWidth_of_le (Int.ofNat_le.mpr hle) h, Int.toNat_natCast]
      · have hlt := Nat.not_le.mp (mt (Bytes.byteLength_le_iff _ _).mp hfits)
        rw [if_neg hfits, toWidth_of_lt (Int.ofNat_lt.mpr hlt)]

/-- `written` has the width that was asked for, and fills a container with the scalar of `data`. -/
structure Restores (data written : Bytes) (width : Int) : Prop where
  length_eq : (written.length : Int) = width
  made (memory : Memory) : ofFilling memory (.bytes written) = .ok (live written)
  value_eq : (live written).value = .ok (Bytes.toNat data)
  equal : (live written).equals (live data) = true

theorem restores_ofNat (h : Bytes.byteLength (Bytes.toNat data) ≤ width) :
    Restores data (Bytes.ofNat width.toNat (Bytes.toNat data)) width := by
  obtain ⟨w, rfl⟩ := Int.eq_ofNat_of_zero_le (Int.le_trans (Int.natCast_nonneg _) h)
  have hvalue : Bytes.toNat (Bytes.ofNat w (Bytes.toNat data)) = Bytes.toNat data := by
    apply Bytes.toNat_ofNat
    rw [← Bytes.byteLength_le_iff]
    exact Int.ofNat_le.mp h
  constructor
  · rw [Int.toNat_natCast, Bytes.ofNat_length]
  · exact fun _ => rfl
  · exact congrArg Except.ok hvalue
  · exact beq_iff_eq.mpr hvalue

/-! ## Numbers -/

theorem ofInt_natCast (value : Nat) : ofInt value = .ok (live (Bytes.ofNatMinimal value)) := by
  have hfits : value < 256 ^ max (Bytes.byteLength value) 1 := by
    rw [← Bytes.byteLength_le_iff]
    exact Nat.le_max_left _ _
  have hlen : byteLength (value : Int) = Bytes.byteLength value := rfl
  rw [ofInt, hlen, encodeInt_natCast, if_pos hfits]
  rfl

theorem ofInt_of_neg {value : Int} (h : value < 0) :
    ofInt value = .error (.fault (.width .negativeValue)) := by
  rw [ofInt, encodeInt, if_neg (Int.not_lt.mpr (Int.natCast_nonneg _)), if_pos h]

/-! ## All widths -/

/-- What becomes of a live container in every width; `size` is its natural size. -/
structure Writes (memory : Memory) (data : Bytes) (size : Nat) : Prop where
  naturalSize : (live data).naturalSize = .ok size
  least : IsLeast {width : Nat | Bytes.toNat data < 256 ^ width} size
  refused (width : Int) : width < size →
    (live data).toWidth memory (.whole width) = .error (.encoding .secretTooLarge)
  written (width : Int) : size ≤ width → width < memory.limit →
    ∃ bytes, (live data).toWidth memory (.whole width) = .ok bytes ∧ Restores data bytes width
  /-- Wide enough for the scalar, and wider than what the machine holds. -/
  exceeded (width : Int) : size ≤ width → memory.limit ≤ width →
    (live data).toWidth memory (.whole width) = .error (.fault (.width (excessFault width)))

theorem writes_live (memory : Memory) (data : Bytes) :
    Writes memory data (Bytes.byteLength (Bytes.toNat data)) := by
  constructor
  case naturalSize => exact naturalSize_live data
  case least =>
    constructor
    · exact (Bytes.byteLength_le_iff _ _).mp (Nat.le_refl _)
    · intro width hwidth
      exact (Bytes.byteLength_le_iff _ _).mpr hwidth
  case refused => exact fun width h => toWidth_of_lt h
  case written => exact fun width h hw => ⟨_, toWidth_of_le h hw, restores_ofNat h⟩
  case exceeded => exact fun width h hw => toWidth_of_exceeds h hw

/-- Containers are written in the widths from the natural size on, as far as a machine holds
them, and made from every number that is not negative. -/
theorem converts (memory : Memory) (data : Bytes) :
    (∃ size, Writes memory data size)
      ∧ (∀ length : Nat, (length : Int) < memory.limit → ∀ s : SecretScalar,
          s.toWidth memory (.whole length) = s.toBytes length)
      ∧ (∀ value : Nat, ∃ s, ofInt value = .ok s ∧ s.value = .ok value)
      ∧ ∀ value : Int, value < 0 → ofInt value = .error (.fault (.width .negativeValue)) := by
  refine ⟨⟨_, writes_live memory data⟩, fun length h s => toWidth_eq_toBytes s h, ?_,
    fun value h => ofInt_of_neg h⟩
  intro value
  exact ⟨_, ofInt_natCast value, congrArg Except.ok (Bytes.toNat_ofNatMinimal value)⟩

/-- Two zero bytes in front of a scalar that needs two bytes: it is written in two and in three
bytes, and neither in one nor in less than none. -/
theorem converts_padded :
    Writes .full [0, 0, 1, 2] 2
      ∧ (live [0, 0, 1, 2]).toWidth .full (.whole 2) = .ok [1, 2]
      ∧ (live [0, 0, 1, 2]).toWidth .full (.whole 3) = .ok [0, 1, 2]
      ∧ (live [0, 0, 1, 2]).toWidth .full (.whole 1) = .error (.encoding .secretTooLarge)
      ∧ (live [0, 0, 1, 2]).toWidth .full (.whole (-1))
        = .error (.encoding .secretTooLarge) := by
  have hread : (live [0, 0, 1, 2]).naturalSize = .ok 2
      ∧ (live [0, 0, 1, 2]).toWidth .full (.whole 2) = .ok [1, 2]
      ∧ (live [0, 0, 1, 2]).toWidth .full (.whole 3) = .ok [0, 1, 2] := by decide +kernel
  obtain ⟨size, hwrites⟩ := (converts .full [0, 0, 1, 2]).1
  obtain rfl : size = 2 := Except.ok.inj (hwrites.naturalSize.symm.trans hread.1)
  exact ⟨hwrites, hread.2.1, hread.2.2, hwrites.refused 1 (by decide),
    hwrites.refused (-1) (by decide)⟩

/-- A width that is no index is wide enough for every scalar, and what is reported then is not
that the scalar is too large, not even by a machine that holds whatever there may be. -/
theorem toWidth_indexLimit :
    (live [1]).naturalSize = .ok 1 ∧ (1 : Int) ≤ indexLimit
      ∧ (live [1]).toWidth .full (.whole indexLimit) = .error (.fault (.width .unindexable)) :=
  ⟨by decide, by decide, by decide⟩

end SecpKey.SecretScalar
