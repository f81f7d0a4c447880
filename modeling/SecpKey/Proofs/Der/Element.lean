/-
  SecpKey.Proofs.Der.Element

  The readers of DER lengths, elements and integers take off the front exactly what the
  writers put there.  Each law is an equivalence: from right to left it is the round
  trip, from left to right it says that nothing but the written form is accepted, so an
  element has one form only.  `lengthLimit` is where lengths stop having a form.
-/
import SecpKey.Der.Reader
import SecpKey.Der.Writer
import SecpKey.Proofs.BigEndian
import SecpKey.Proofs.Except

namespace SecpKey.Der

/-- A length from here on needs more than the 127 bytes that its first byte can count. -/
def lengthLimit : Nat := 256 ^ 127

theorem lt_lengthLimit {n k : Nat} (h : n < 256 ^ k) (hk : k ≤ 127) : n < lengthLimit :=
  Nat.lt_of_lt_of_le h (Nat.pow_le_pow_right (by decide) hk)

/-! ## Lengths -/

/-- The digits of a number below 128 are a single one, when there is no zero in front. -/
theorem toNat_lt_128_iff {digits : Bytes} (h : digits.headD 0 ≠ 0) :
    Bytes.toNat digits < 0x80 ↔ digits.length = 1 ∧ digits.headD 0 < 0x80 := by
  constructor
  · intro hlt
    have hle := (Bytes.byteLength_le_iff (Bytes.toNat digits) 1).mpr (by omega)
    rw [Bytes.byteLength_toNat h] at hle
    obtain ⟨x, rfl⟩ : ∃ x, digits = [x] := by
      match digits, h, hle with
      | [x], _, _ => exact ⟨x, rfl⟩
    rw [Bytes.toNat_cons] at hlt
    refine ⟨rfl, ?_⟩
    rw [List.headD_cons, UInt8.lt_iff_toNat_lt]
    simpa using hlt
  · rintro ⟨hone, hlow⟩
    obtain ⟨x, rfl⟩ := List.length_eq_one_iff.mp hone
    rw [List.headD_cons, UInt8.lt_iff_toNat_lt] at hlow
    rw [Bytes.toNat_cons]
    simpa using hlow

/-- A length below 128 is its own byte. -/
theorem toNat_ofNat_of_short {n : Nat} (h : n < 0x80) :
    (UInt8.ofNat n).toNat = n ∧ UInt8.ofNat n < 0x80 := by
  have hval : (UInt8.ofNat n).toNat = n := by
    rw [UInt8.toNat_ofNat']
    omega
  refine ⟨hval, ?_⟩
  rw [UInt8.lt_iff_toNat_lt, hval]
  exact h

theorem encodeLength_short {n : Nat} (h : n < 0x80) : encodeLength n = [UInt8.ofNat n] := by
  rw [encodeLength, if_pos h]

theorem encodeLength_long {n : Nat} (h : ¬ n < 0x80) :
    encodeLength n
      = UInt8.ofNat (0x80 + (Bytes.ofNatMinimal n).length) :: Bytes.ofNatMinimal n := by
  rw [encodeLength, if_neg h]

/-- The number of bytes that a length below the limit is counted with. -/
theorem ofNatMinimal_length_le {n : Nat} (h : n < lengthLimit) :
    (Bytes.ofNatMinimal n).length ≤ 127 := by
  rw [Bytes.ofNatMinimal_length]
  have := (Bytes.byteLength_le_iff n 127).mpr h
  omega

theorem readLength_short {b : UInt8} (h : b < 0x80) (rest : Bytes) :
    readLength (b :: rest) = .ok (b.toNat, rest) := by
  rw [readLength, if_pos h]

/-- Whether a length with the digits behind it is read depends on nothing but the digits. -/
theorem readLength_long {digits : Bytes} (h : digits.length < 0x80) (rest : Bytes) :
    readLength (UInt8.ofNat (0x80 + digits.length) :: (digits ++ rest))
      = if digits.length = 0 then .error .lengthOfLengthZero
        else if digits.headD 0 = 0 ∨ digits.length = 1 ∧ digits.headD 0 < 0x80 then
          .error .lengthNotMinimal
        else .ok (Bytes.toNat digits, rest) := by
  have hcount : (UInt8.ofNat (0x80 + digits.length)).toNat = 0x80 + digits.length := by
    rw [UInt8.toNat_ofNat']
    omega
  have hlong : ¬ UInt8.ofNat (0x80 + digits.length) < 0x80 := by
    rw [UInt8.lt_iff_toNat_lt, hcount]
    exact Nat.not_lt.mpr (Nat.le_add_right _ _)
  rw [readLength, if_neg hlong, hcount, Nat.add_sub_cancel_left]
  split
  · rfl
  · next hne =>
    have hhead : (digits ++ rest).headD 0 = digits.headD 0 := by
      cases digits with
      | nil => exact absurd rfl hne
      | cons x tail => rfl
    rw [if_neg (by rw [List.length_append]; omega), hhead, List.take_left, List.drop_left]

/-- A written length is read back. -/
theorem readLength_encodeLength {n : Nat} (h : n < lengthLimit) (rest : Bytes) :
    readLength (encodeLength n ++ rest) = .ok (n, rest) := by
  by_cases hshort : n < 0x80
  · obtain ⟨hval, hb⟩ := toNat_ofNat_of_short hshort
    rw [encodeLength_short hshort, List.singleton_append, readLength_short hb, hval]
  · have hval := Bytes.toNat_ofNatMinimal n
    have hhead : (Bytes.ofNatMinimal n).headD 0 ≠ 0 :=
      Bytes.headD_ofNatMinimal_ne_zero (by omega)
    have hle := ofNatMinimal_length_le h
    have hpos := List.length_pos_iff.mpr (Bytes.ofNatMinimal_ne_nil n)
    -- The digits are the fewest, so the reader does not turn them down.
    have hmin : ¬ ((Bytes.ofNatMinimal n).headD 0 = 0
        ∨ (Bytes.ofNatMinimal n).length = 1 ∧ (Bytes.ofNatMinimal n).headD 0 < 0x80) := by
      rw [← toNat_lt_128_iff hhead, hval]
      exact fun h => h.elim hhead hshort
    rw [encodeLength_long hshort, List.cons_append, readLength_long (Nat.lt_succ_of_le hle),
      if_neg (Nat.ne_of_gt hpos), if_neg hmin, hval]

/-- A length is read from its written form only. -/
theorem eq_encodeLength_of_readLength {input rest : Bytes} {n : Nat}
    (h : readLength input = .ok (n, rest)) : input = encodeLength n ++ rest ∧ n < lengthLimit := by
  cases input with
  | nil => simp [readLength] at h
  | cons b tail =>
      rw [readLength] at h
      have hb : b.toNat < 256 := b.toNat_lt
      split at h
      · next hshort =>
        rw [UInt8.lt_iff_toNat_lt] at hshort
        obtain ⟨rfl, rfl⟩ := by simpa using h
        refine ⟨?_, lt_lengthLimit (k := 1) (by omega) (by decide)⟩
        rw [encodeLength_short hshort, UInt8.ofNat_toNat, List.singleton_append]
      · next hlong =>
        rw [UInt8.lt_iff_toNat_lt, show (0x80 : UInt8).toNat = 128 from rfl] at hlong
        split at h
        · simp at h
        split at h
        · simp at h
        split at h
        · simp at h
        next hzero hfit hmin =>
        obtain ⟨rfl, rfl⟩ := by simpa using h
        -- `k` digits follow; the last test says that they are the shortest form.
        set k := b.toNat - 0x80 with hk
        have hlen : (tail.take k).length = k := by
          rw [List.length_take]
          omega
        have hhead : (tail.take k).headD 0 = tail.headD 0 := by
          cases tail with
          | nil => simp
          | cons x tail =>
              obtain ⟨j, hj⟩ := Nat.exists_eq_succ_of_ne_zero hzero
              rw [hj, List.take_succ_cons, List.headD_cons, List.headD_cons]
        have hhead0 : (tail.take k).headD 0 ≠ 0 := by
          rw [hhead]
          exact fun h0 => hmin (Or.inl h0)
        have hge : ¬ Bytes.toNat (tail.take k) < 0x80 := by
          rw [toNat_lt_128_iff hhead0, hlen, hhead]
          exact fun h1 => hmin (Or.inr h1)
        have hlt := Bytes.toNat_lt (tail.take k)
        rw [hlen] at hlt
        refine ⟨?_, lt_lengthLimit hlt (by omega)⟩
        rw [encodeLength_long hge, Bytes.ofNatMinimal_toNat hhead0, hlen,
          show 0x80 + k = b.toNat by omega, UInt8.ofNat_toNat, List.cons_append,
          List.take_append_drop]

theorem readLength_eq_ok_iff {input rest : Bytes} {n : Nat} :
    readLength input = .ok (n, rest) ↔ input = encodeLength n ++ rest ∧ n < lengthLimit := by
  constructor
  · exact eq_encodeLength_of_readLength
  · rintro ⟨rfl, h⟩
    exact readLength_encodeLength h rest

/-! ## Elements -/

theorem expect_eq_ok_iff {tag : Tag} {input rest : Bytes} :
    expect tag input = .ok rest ↔ input = tag.byte :: rest := by
  cases input with
  | nil => simp [expect]
  | cons b tail =>
      rw [expect]
      split
      · next h => simp [h]
      · next h => simp [h]

theorem readContents_eq_ok_iff {tag : Tag} {input contents rest : Bytes} :
    readContents tag input = .ok (contents, rest)
      ↔ input = encodeLength contents.length ++ contents ++ rest
        ∧ contents.length < lengthLimit := by
  simp only [readContents, bind_eq_ok, Prod.exists, readLength_eq_ok_iff]
  constructor
  · rintro ⟨n, tail, ⟨rfl, hn⟩, h⟩
    split at h
    · simp at h
    next hfit =>
    obtain ⟨rfl, rfl⟩ := by simpa using h
    have hlen : (tail.take n).length = n := by
      rw [List.length_take]
      omega
    rw [hlen, List.append_assoc, List.take_append_drop]
    exact ⟨rfl, hn⟩
  · rintro ⟨rfl, hn⟩
    refine ⟨contents.length, contents ++ rest, ⟨List.append_assoc _ _ _, hn⟩, ?_⟩
    rw [if_neg (by rw [List.length_append]; omega), List.take_left, List.drop_left]

/-- An element is read from its written form only, and from every written form. -/
theorem readElement_eq_ok_iff {tag : Tag} {input contents rest : Bytes} :
    readElement tag input = .ok (contents, rest)
      ↔ input = encodeElement tag contents ++ rest ∧ contents.length < lengthLimit := by
  simp only [readElement, bind_eq_ok, expect_eq_ok_iff, readContents_eq_ok_iff, encodeElement]
  constructor
  · rintro ⟨tail, rfl, rfl, hn⟩
    exact ⟨rfl, hn⟩
  · rintro ⟨rfl, hn⟩
    exact ⟨_, rfl, rfl, hn⟩

theorem readElement_encodeElement (tag : Tag) {contents : Bytes} (rest : Bytes)
    (h : contents.length < lengthLimit) :
    readElement tag (encodeElement tag contents ++ rest) = .ok (contents, rest) :=
  readElement_eq_ok_iff.mpr ⟨rfl, h⟩

theorem length_lt_encodeElement (tag : Tag) (contents : Bytes) :
    contents.length < (encodeElement tag contents).length := by
  rw [encodeElement, List.length_cons, List.length_append]
  omega

/-- The identifier byte and the length take no more than 129 bytes. -/
theorem encodeElement_length_le (tag : Tag) (contents : Bytes) (h : contents.length < lengthLimit) :
    (encodeElement tag contents).length ≤ contents.length + 129 := by
  have hcount : (encodeLength contents.length).length ≤ 128 := by
    by_cases hshort : contents.length < 0x80
    · rw [encodeLength_short hshort]
      exact Nat.le_add_left 1 127
    · rw [encodeLength_long hshort, List.length_cons]
      exact Nat.succ_le_succ (ofNatMinimal_length_le h)
  rw [encodeElement, List.length_cons, List.length_append]
  omega

/-! ## Integers -/

theorem integerContents_eq {v : Nat} {x : UInt8} {rest : Bytes}
    (h : Bytes.ofNatMinimal v = x :: rest) :
    integerContents v = if 0x80 ≤ x then 0 :: x :: rest else x :: rest := by
  rw [integerContents, h]
  rfl

/-- The shortest digits of a number, behind a zero byte if the first one has its high bit set,
are integer contents that give the number. -/
theorem integerValue_integerContents (v : Nat) : integerValue (integerContents v) = .ok v := by
  have hval := Bytes.toNat_ofNatMinimal v
  have hhead : v ≠ 0 → (Bytes.ofNatMinimal v).headD 0 ≠ 0 := Bytes.headD_ofNatMinimal_ne_zero
  have hzero : v = 0 → Bytes.ofNatMinimal v = [0] := by
    rintro rfl
    rfl
  -- Digits with the high bit set get a zero byte, which the reader takes for needed;
  -- the others start with zero only if they are the number zero.
  cases hd : Bytes.ofNatMinimal v with
  | nil => exact absurd hd (Bytes.ofNatMinimal_ne_nil v)
  | cons x rest =>
      rw [hd] at hval hhead hzero
      rw [integerContents_eq hd]
      by_cases hhigh : 0x80 ≤ x
      · have hlow : ¬ x < 0x80 := UInt8.not_lt.mpr hhigh
        rw [if_pos hhigh, integerValue, if_neg (by decide), if_neg (by simpa using hlow),
          Bytes.toNat_cons]
        simp [hval]
      · have hpad : ¬ (x = 0 ∧ rest ≠ [] ∧ rest.headD 0 < 0x80) := by
          rintro ⟨rfl, hne, -⟩
          by_cases hv : v = 0
          · exact hne (List.cons.inj (hzero hv)).2
          · exact hhead hv rfl
        rw [if_neg hhigh, integerValue, if_neg hhigh, if_neg hpad, hval]

/-- Integer contents that give a number are the ones written for it. -/
theorem eq_integerContents_of_integerValue {contents : Bytes} {v : Nat}
    (h : integerValue contents = .ok v) : contents = integerContents v := by
  cases contents with
  | nil => simp [integerValue] at h
  | cons x rest =>
      rw [integerValue] at h
      split at h
      · simp at h
      split at h
      · simp at h
      next hsign hpad =>
      obtain rfl : Bytes.toNat (x :: rest) = v := by simpa using h
      by_cases hx : x = 0
      · -- A leading zero byte is there for the sign bit behind it, or it is the number zero.
        subst hx
        cases rest with
        | nil => rfl
        | cons y tail =>
            have hy : 0x80 ≤ y := by
              rw [← UInt8.not_lt]
              exact fun hlt => hpad ⟨rfl, by simp, hlt⟩
            have hy0 : (y :: tail).headD 0 ≠ 0 := by
              rintro rfl
              exact absurd hy (by decide)
            have hval : Bytes.toNat (0 :: y :: tail) = Bytes.toNat (y :: tail) := by
              rw [Bytes.toNat_cons]
              simp
            rw [integerContents, hval, Bytes.ofNatMinimal_toNat hy0, List.headD_cons, if_pos hy]
      · rw [integerContents, Bytes.ofNatMinimal_toNat (by simpa using hx), List.headD_cons,
          if_neg hsign]

/-- Contents have at most one byte more than the digits. -/
theorem integerContents_length_le {v k : Nat} (h : v < 256 ^ k) (hk : 1 ≤ k) :
    (integerContents v).length ≤ k + 1 := by
  have hle := (Bytes.byteLength_le_iff v k).mpr h
  have hlen := Bytes.ofNatMinimal_length v
  rw [integerContents]
  split
  · rw [List.length_cons]
    omega
  · omega

theorem integerValue_eq_ok_iff {contents : Bytes} {v : Nat} :
    integerValue contents = .ok v ↔ contents = integerContents v := by
  constructor
  · exact eq_integerContents_of_integerValue
  · rintro rfl
    exact integerValue_integerContents v

/-- An integer is read from its written form only, and from every written form. -/
theorem readInteger_eq_ok_iff {input rest : Bytes} {v : Nat} :
    readInteger input = .ok (v, rest)
      ↔ input = encodeInteger v ++ rest ∧ (integerContents v).length < lengthLimit := by
  simp only [readInteger, bind_eq_ok, Prod.exists, readElement_eq_ok_iff, integerValue_eq_ok_iff,
    encodeInteger]
  constructor
  · rintro ⟨contents, tail, ⟨rfl, hn⟩, w, rfl, h⟩
    obtain ⟨rfl, rfl⟩ := by simpa using h
    exact ⟨rfl, hn⟩
  · rintro ⟨rfl, hn⟩
    exact ⟨_, _, ⟨rfl, hn⟩, _, rfl, rfl⟩

/-! ## Bit strings -/

/-- A bit string without unused bits, which says that `declared` bytes follow. -/
def bitString (declared : Nat) (payload : Bytes) : Bytes :=
  Tag.bitString.byte :: (encodeLength declared ++ 0 :: payload)

theorem encodeBitString_eq (payload : Bytes) :
    encodeBitString payload = bitString (payload.length + 1) payload := rfl

/-- A bit string is read whatever it says to have, as long as that is no less than there is;
but behind one that says more there is nothing left. -/
theorem readBitString_eq_ok_iff {input payload rest : Bytes} :
    readBitString input = .ok (payload, rest)
      ↔ ∃ declared, input = bitString declared payload ++ rest ∧ declared < lengthLimit
          ∧ payload.length + 1 ≤ declared ∧ (declared = payload.length + 1 ∨ rest = []) := by
  simp only [readBitString, bind_eq_ok, Prod.exists, expect_eq_ok_iff, readLength_eq_ok_iff]
  constructor
  · rintro ⟨_, rfl, declared, tail, ⟨rfl, hdeclared⟩, h⟩
    split at h
    · simp at h
    split at h
    · simp at h
    next unused taken htake =>
    split at h
    · simp at h
    split at h
    · simp at h
    next hunused =>
    obtain ⟨rfl, rfl⟩ := by simpa using h
    obtain rfl := not_not.mp hunused
    -- What is taken and what is left make up the contents, whether or not they are cut off.
    have htail : 0 :: taken ++ tail.drop declared = tail := by
      rw [← htake, List.take_append_drop]
    have hlen := congrArg List.length htake
    rw [List.length_take, List.length_cons] at hlen
    refine ⟨declared, ?_, hdeclared, by omega, ?_⟩
    · rw [bitString, List.cons_append, List.append_assoc, htail]
    · rw [List.drop_eq_nil_iff]
      omega
  · rintro ⟨declared, rfl, hdeclared, hle, hrest⟩
    have htake : (0 :: payload ++ rest).take declared = 0 :: payload := by
      rcases hrest with rfl | rfl
      · exact List.take_left' rfl
      · rw [List.append_nil]
        exact List.take_of_length_le hle
    have hdrop : (0 :: payload ++ rest).drop declared = rest := by
      rcases hrest with rfl | rfl
      · exact List.drop_left' rfl
      · rw [List.append_nil, List.drop_eq_nil_iff]
        exact hle
    refine ⟨_, by rw [bitString, List.cons_append, List.append_assoc], declared,
      0 :: payload ++ rest, ⟨rfl, hdeclared⟩, ?_⟩
    rw [if_neg (by omega), htake, hdrop]
    rfl

/-! ## Optional fields -/

/-- An optional field: nothing, or the field around its contents. -/
def optionalField (number : Nat) : Option Bytes → Bytes
  | none => []
  | some contents => encodeField number contents

theorem head?_encodeField (number : Nat) (contents rest : Bytes) :
    (encodeField number contents ++ rest).head? = some (Tag.field number).byte := rfl

/-- An optional field is read as what it is, when what follows is not taken for it. -/
theorem readField?_eq_ok_iff {number : Nat} {input rest : Bytes} {field : Option Bytes} :
    readField? number input = .ok (field, rest)
      ↔ input = optionalField number field ++ rest
        ∧ (field = none → rest.head? ≠ some (Tag.field number).byte)
        ∧ ∀ contents, field = some contents → contents.length < lengthLimit := by
  rw [readField?]
  split
  · next hhead =>
    simp only [bind_eq_ok, Prod.exists, readElement_eq_ok_iff]
    constructor
    · rintro ⟨contents, tail, ⟨rfl, hn⟩, h⟩
      obtain ⟨rfl, rfl⟩ := by simpa using h
      exact ⟨rfl, by simp, by rintro _ ⟨⟩; exact hn⟩
    · rintro ⟨rfl, hrest, hn⟩
      cases field with
      | none => exact absurd hhead (hrest rfl)
      | some contents => exact ⟨contents, rest, ⟨rfl, hn contents rfl⟩, rfl⟩
  · next hhead =>
    constructor
    · intro h
      obtain ⟨rfl, rfl⟩ := by simpa using h
      exact ⟨rfl, fun _ => hhead, by simp⟩
    · rintro ⟨rfl, -, -⟩
      cases field with
      | none => rfl
      | some contents => exact absurd (head?_encodeField number contents rest) hhead

end SecpKey.Der
