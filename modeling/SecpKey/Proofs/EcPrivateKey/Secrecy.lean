/-
  SecpKey.Proofs.EcPrivateKey.Secrecy

  What is reported of a file does not depend on the bytes of its scalar.  `Around` is what
  stands around them, well-formed or not: no check before the scalar's own looks at any of
  them (`agree_readParts`), and that one only at their number and at whether the scalar is in
  range (`agree_decode`).
-/
import SecpKey.Proofs.EcPrivateKey.Layout

namespace SecpKey

namespace Der

/-! ## Headers -/

/-- What a length of `n` can look like: one byte, or a count and that many digits.  The digits
need not be the fewest, and none at all is how a length that is left open starts. -/
inductive LengthOctets : Bytes → Nat → Prop
  | short {b : UInt8} (h : b < 0x80) : LengthOctets [b] b.toNat
  | long {digits : Bytes} (h : digits.length < 0x80) :
      LengthOctets (UInt8.ofNat (0x80 + digits.length) :: digits) (Bytes.toNat digits)

/-- An identifier, which is any byte, and a length of `n`. -/
inductive Header : Bytes → Nat → Prop
  | mk (identifier : UInt8) {octets : Bytes} {n : Nat} (h : LengthOctets octets n) :
      Header (identifier :: octets) n

variable {octets header input input' : Bytes} {n : Nat}

/-- A length that is written looks like one. -/
theorem lengthOctets_encodeLength (h : n < lengthLimit) : LengthOctets (encodeLength n) n := by
  by_cases hshort : n < 0x80
  · obtain ⟨hval, hb⟩ := toNat_ofNat_of_short hshort
    have hone := LengthOctets.short hb
    rwa [hval, ← encodeLength_short hshort] at hone
  · rw [encodeLength_long hshort]
    have hlong := LengthOctets.long (Nat.lt_succ_of_le (ofNatMinimal_length_le h))
    rwa [Bytes.toNat_ofNatMinimal] at hlong

/-- A length is refused or read, whatever follows it. -/
theorem LengthOctets.readLength_cases (h : LengthOctets octets n) :
    (∃ fault, ∀ rest, readLength (octets ++ rest) = .error fault)
      ∨ ∀ rest, readLength (octets ++ rest) = .ok (n, rest) := by
  cases h with
  | short hb => exact .inr fun rest => readLength_short hb rest
  | @long digits hdigits =>
      by_cases hzero : digits.length = 0
      · refine .inl ⟨.lengthOfLengthZero, fun rest => ?_⟩
        rw [List.cons_append, readLength_long hdigits, if_pos hzero]
      · by_cases hpadded : digits.headD 0 = 0 ∨ digits.length = 1 ∧ digits.headD 0 < 0x80
        · refine .inl ⟨.lengthNotMinimal, fun rest => ?_⟩
          rw [List.cons_append, readLength_long hdigits, if_neg hzero, if_pos hpadded]
        · refine .inr fun rest => ?_
          rw [List.cons_append, readLength_long hdigits, if_neg hzero, if_neg hpadded]

/-- A header is refused whatever follows it, or asks for as many bytes as it says. -/
theorem Header.readElement_cases (h : Header header n) (tag : Tag) :
    (∃ fault, ∀ input, readElement tag (header ++ input) = .error fault)
      ∨ ∀ input, readElement tag (header ++ input)
          = if input.length < n then .error (.overrun tag)
            else .ok (input.take n, input.drop n) := by
  obtain @⟨identifier, octets, _, hlength⟩ := h
  by_cases htag : identifier = tag.byte
  · have htaken : ∀ input, readElement tag (identifier :: octets ++ input)
        = readContents tag (octets ++ input) := by
      intro input
      rw [readElement, List.cons_append, expect, if_pos htag]
      rfl
    rcases hlength.readLength_cases with ⟨fault, hfault⟩ | hok
    · refine .inl ⟨fault, fun input => ?_⟩
      rw [htaken, readContents, hfault]
      rfl
    · refine .inr fun input => ?_
      rw [htaken, readContents, hok]
      rfl
  · refine .inl ⟨.wrongTag tag identifier, fun input => ?_⟩
    rw [readElement, List.cons_append, expect, if_neg htag]
    rfl

/-- Behind one header, inputs of one length are taken apart in the same place. -/
theorem Header.agree_readElement (h : Header header n) (tag : Tag)
    (hlen : input.length = input'.length) :
    Agree (fun taken taken' => n ≤ input.length ∧ taken = (input.take n, input.drop n)
        ∧ taken' = (input'.take n, input'.drop n))
      (readElement tag (header ++ input)) (readElement tag (header ++ input')) := by
  rcases h.readElement_cases tag with ⟨fault, hfault⟩ | hok
  · rw [hfault, hfault]
    exact .error fault
  · rw [hok, hok, ← hlen]
    split
    · exact .error _
    · next hfit => exact .ok ⟨Nat.not_lt.mp hfit, rfl, rfl⟩

/-- Behind one integer, well-formed or not, nothing is looked at. -/
theorem Header.agree_readInteger {contents : Bytes} (h : Header header contents.length)
    (hlen : input.length = input'.length) :
    Agree (fun taken taken' => taken.1 = taken'.1 ∧ taken.2 = input ∧ taken'.2 = input')
      (readInteger (header ++ (contents ++ input)))
      (readInteger (header ++ (contents ++ input'))) := by
  refine .bind (h.agree_readElement .integer ?_) ?_
  · rw [List.length_append, List.length_append, hlen]
  · rintro _ _ ⟨-, rfl, rfl⟩
    dsimp only
    rw [List.take_left, List.take_left, List.drop_left, List.drop_left]
    refine .bind (.of_eq (fun _ => Eq.refl _) rfl) ?_
    rintro value _ rfl
    exact .ok ⟨rfl, rfl, rfl⟩

end Der

namespace EcPrivateKey

variable {P : Type} {backend : Backend P} {curve : Curve} {front back secret secret' : Bytes}
  {size : Nat}

/-! ## Around the scalar -/

/-- What stands around the `size` bytes of the scalar in a file: in front of them the headers
of the file and of the scalar with a version between them, behind them anything.  The header
of the file may have any length, and that of the scalar more than there is, if the file ends
there. -/
inductive Around (back : Bytes) (size : Nat) : Bytes → Prop
  | mk {outer middle version inner : Bytes} {total declared : Nat} (file : Der.Header outer total)
      (number : Der.Header middle version.length) (scalar : Der.Header inner declared)
      (cut : declared = size ∨ size < declared ∧ back = []) :
      Around back size (outer ++ (middle ++ (version ++ inner)))

/-- Every file that is taken apart has the scalar's bytes there. -/
theorem exists_around_of_readParts {data : Bytes} {publicKey : Option Bytes}
    (h : readParts backend curve data = .ok (secret, publicKey)) :
    ∃ front back, data = front ++ (secret ++ back) ∧ Around back secret.length front := by
  obtain ⟨parameters, wrapped, rfl, hlen, -, -⟩ := readParts_eq_ok_iff.mp h
  have hversion : (Der.integerContents keyVersion).length < Der.lengthLimit := by decide
  have hfile := Der.Header.mk Der.Tag.sequence.byte (Der.lengthOctets_encodeLength hlen)
  have hnumber := Der.Header.mk Der.Tag.integer.byte (Der.lengthOctets_encodeLength hversion)
  have hscalar := Der.Header.mk Der.Tag.octetString.byte
    (Der.lengthOctets_encodeLength (lengths_of_layout hlen).1)
  refine ⟨_, Der.optionalField parametersField parameters
    ++ Der.optionalField publicKeyField wrapped, ?_, .mk hfile hnumber hscalar (.inl rfl)⟩
  simp only [Der.encodeElement, layout, Der.encodeInteger, Der.encodeOctetString,
    List.cons_append, List.append_assoc]

theorem agree_ensure {c c' : Bool} {cause cause' : DecodeFault} (hc : c = c')
    (hcause : cause = cause') :
    Agree (fun _ _ => c = true) (ensure c cause) (ensure c' cause') := by
  subst hc hcause
  exact .ite Iff.rfl (fun h _ => .ok h) (.error _)

/-- Two files with the same bytes around their scalars are taken apart alike. -/
theorem agree_readParts (h : Around back size front) (hs : secret.length = size)
    (hs' : secret'.length = size) :
    Agree (fun parts parts' => parts.1 = secret ∧ parts'.1 = secret' ∧ parts.2 = parts'.2)
      (readParts backend curve (front ++ (secret ++ back)))
      (readParts backend curve (front ++ (secret' ++ back))) := by
  obtain @⟨outer, middle, version, inner, total, declared, hfile, hnumber, hscalar, hcut⟩ := h
  have hlen : (secret ++ back).length = (secret' ++ back).length := by
    rw [List.length_append, List.length_append, hs, hs']
  have hinner : (inner ++ (secret ++ back)).length = (inner ++ (secret' ++ back)).length := by
    rw [List.length_append, hlen, ← List.length_append]
  have hbody : (middle ++ (version ++ (inner ++ (secret ++ back)))).length
      = (middle ++ (version ++ (inner ++ (secret' ++ back)))).length := by
    simp only [List.length_append] at hinner ⊢
    omega
  have hassoc : ∀ tail, outer ++ (middle ++ (version ++ inner)) ++ tail
      = outer ++ (middle ++ (version ++ (inner ++ tail))) := by
    intro tail
    simp only [List.append_assoc]
  rw [hassoc, hassoc]
  refine .bind (.mapError (hfile.agree_readElement .sequence hbody)) ?_
  rintro _ _ ⟨-, rfl, rfl⟩
  -- Either file ends where its header says, or both have bytes left.
  refine .bind (agree_ensure ?_ rfl) fun _ _ hended => ?_
  · rw [Bool.eq_iff_iff, beq_iff_eq, beq_iff_eq, List.drop_eq_nil_iff, List.drop_eq_nil_iff, hbody]
  rw [beq_iff_eq, List.drop_eq_nil_iff] at hended
  rw [List.take_of_length_le hended, List.take_of_length_le (hbody ▸ hended)]
  refine .bind (.mapError (hnumber.agree_readInteger hinner)) ?_
  rintro ⟨number, _⟩ ⟨_, _⟩ ⟨rfl, rfl, rfl⟩
  refine .bind (agree_ensure rfl rfl) fun _ _ _ => ?_
  refine .bind (.mapError (hscalar.agree_readElement .octetString hlen)) ?_
  rintro _ _ ⟨hfit, rfl, rfl⟩
  -- An octet string that is cut off has been refused, so this one has the scalar's bytes.
  obtain rfl : declared = size := by
    rcases hcut with rfl | ⟨hlt, rfl⟩
    · rfl
    · rw [List.append_nil, hs] at hfit
      omega
  dsimp only
  rw [← hs, List.take_left, List.drop_left, hs, ← hs', List.take_left, List.drop_left]
  refine .bind (.of_eq (fun _ => Eq.refl _) rfl) ?_
  rintro ⟨parameters, body⟩ _ rfl
  refine .bind (.of_eq (fun _ => Eq.refl _) rfl) fun _ _ _ => ?_
  refine .bind (.of_eq (fun _ => Eq.refl _) rfl) ?_
  rintro ⟨wrapped, body⟩ _ rfl
  refine .bind (.of_eq (fun _ => Eq.refl _) rfl) ?_
  rintro publicKey _ rfl
  exact .bind (.of_eq (fun _ => Eq.refl _) rfl) fun _ _ _ => .ok ⟨rfl, rfl, rfl⟩

/-- If the scalars are both in range or both out of it, the files are decoded alike. -/
theorem agree_decode (h : Around back size front) (hs : secret.length = size)
    (hs' : secret'.length = size)
    (hrange : (1 ≤ Bytes.toNat secret ∧ (Bytes.toNat secret : Int) < curve.n)
      ↔ 1 ≤ Bytes.toNat secret' ∧ (Bytes.toNat secret' : Int) < curve.n) :
    Agree (fun decoded decoded' => decoded.publicKey = decoded'.publicKey)
      (decode backend curve (front ++ (secret ++ back)))
      (decode backend curve (front ++ (secret' ++ back))) := by
  refine .bind (agree_readParts h hs hs') ?_
  rintro ⟨_, publicKey⟩ ⟨_, _⟩ ⟨rfl, rfl, rfl⟩
  refine .bind (agree_ensure ?_ ?_) fun _ _ _ => ?_
  · rw [hs, hs']
  · rw [hs, hs']
  refine .bind (agree_ensure ?_ rfl) fun _ _ _ => .ok rfl
  rw [Bool.eq_iff_iff]
  simp only [Bool.and_eq_true, decide_eq_true_eq]
  exact hrange

end EcPrivateKey

end SecpKey
