/-
  SecpKey.Proofs.Signature.Codec

  Reading and writing DER signatures.  `parse` takes exactly the byte strings that
  `encode` writes, so a pair of numbers has one DER signature and a DER signature one
  pair of numbers; everything else is refused as undecodable.
-/
import SecpKey.Signature.Der
import SecpKey.Proofs.Der.Element

namespace SecpKey.Signature

/-- The contents of the sequence that a DER signature is. -/
def body (r s : Nat) : Bytes := Der.encodeInteger r ++ Der.encodeInteger s

theorem encode_eq_encodeElement (r s : Nat) :
    encode r s = Der.encodeElement .sequence (body r s) := by
  simp [encode, Der.encodeSequence, body]

/-- The contents of either integer are part of the contents of the sequence. -/
theorem length_le_body (r s : Nat) :
    (Der.integerContents r).length ≤ (body r s).length
      ∧ (Der.integerContents s).length ≤ (body r s).length := by
  have hr := Der.length_lt_encodeElement .integer (Der.integerContents r)
  have hs := Der.length_lt_encodeElement .integer (Der.integerContents s)
  rw [body, List.length_append, Der.encodeInteger, Der.encodeInteger]
  omega

/-- A byte string is read as `(r, s)` exactly if it is the DER form of `(r, s)` and its
length has a form. -/
theorem parse_eq_ok_iff {b : Bytes} {r s : Nat} :
    parse b = .ok (r, s) ↔ b = encode r s ∧ (body r s).length < Der.lengthLimit := by
  simp only [parse, bind_eq_ok, mapError_eq_ok, Prod.exists, Der.readSequence,
    Der.readElement_eq_ok_iff]
  constructor
  · rintro ⟨contents, rest, ⟨rfl, hn⟩, h⟩
    split at h
    · simp at h
    next hrest =>
    simp only [bind_eq_ok, mapError_eq_ok, Prod.exists, Der.readInteger_eq_ok_iff] at h
    obtain ⟨r', tail, ⟨rfl, -⟩, s', tail', ⟨rfl, -⟩, h⟩ := h
    split at h
    · simp at h
    next htail =>
    obtain ⟨rfl, rfl⟩ := by simpa using h
    -- Nothing is left behind either integer or behind the sequence.
    obtain rfl := not_not.mp hrest
    obtain rfl := not_not.mp htail
    rw [List.append_nil] at hn
    rw [encode_eq_encodeElement, List.append_nil, List.append_nil]
    exact ⟨rfl, hn⟩
  · rintro ⟨rfl, hn⟩
    obtain ⟨hr, hs⟩ := length_le_body r s
    refine ⟨body r s, [], ⟨by rw [encode_eq_encodeElement, List.append_nil], hn⟩, ?_⟩
    rw [if_neg (not_not.mpr rfl)]
    simp only [bind_eq_ok, mapError_eq_ok, Prod.exists, Der.readInteger_eq_ok_iff]
    refine ⟨r, Der.encodeInteger s, ⟨rfl, by omega⟩, s, [], ⟨by rw [List.append_nil], by omega⟩, ?_⟩
    rw [if_neg (not_not.mpr rfl)]

theorem parse_encode {r s : Nat} (h : (body r s).length < Der.lengthLimit) :
    parse (encode r s) = .ok (r, s) := parse_eq_ok_iff.mpr ⟨rfl, h⟩

/-- Whatever cannot be read is reported as undecodable. -/
theorem failsOnly_parse (b : Bytes) : FailsOnly (·.errorClass? = some .decode) (parse b) := by
  refine .bind (.mapError fun _ => rfl) fun ⟨contents, rest⟩ => .ite (.error rfl) ?_
  refine .bind (.mapError fun _ => rfl) fun ⟨r, contents⟩ => ?_
  exact .bind (.mapError fun _ => rfl) fun ⟨s, rest⟩ => .ite (.error rfl) (.ok _)

/-! ## One form for each signature -/

/-- `parse` and `encode` are inverse to each other: a byte string is read as `(r, s)` exactly
if it is what is written for `(r, s)`, and one that is written for no pair is refused as
undecodable. -/
theorem parse_encode_inverse (b : Bytes) :
    (∀ r s, (body r s).length < 256 ^ 126 → (parse b = .ok (r, s) ↔ b = encode r s))
      ∧ (∀ r s, parse b = .ok (r, s) → b = encode r s)
      ∧ ((∀ r s, b ≠ encode r s) → ∃ e, parse b = .error e ∧ e.errorClass? = some .decode) := by
  refine ⟨?_, ?_, ?_⟩
  · intro r s hlen
    rw [parse_eq_ok_iff, and_iff_left (Der.lt_lengthLimit hlen (by decide))]
  · intro r s h
    exact (parse_eq_ok_iff.mp h).1
  · intro hne
    cases h : parse b with
    | error e => exact ⟨e, rfl, failsOnly_parse b e h⟩
    | ok pair => exact absurd (parse_eq_ok_iff.mp h).1 (hne pair.1 pair.2)

/-- A sign byte in one number, a length of two bytes for the other; and a zero byte that no
sign bit asks for. -/
theorem parse_encode_inverse_long :
    (body 0x80 (256 ^ 130)).length < 256 ^ 126
      ∧ parse (encode 0x80 (256 ^ 130)) = .ok (0x80, 256 ^ 130)
      ∧ (∀ r s, [0x30, 0x07, 0x02, 0x02, 0x00, 0x01, 0x02, 0x01, 0x01] ≠ encode r s)
      ∧ ∃ e, parse [0x30, 0x07, 0x02, 0x02, 0x00, 0x01, 0x02, 0x01, 0x01] = .error e
          ∧ e.errorClass? = some .decode := by
  have hlen : (body 0x80 (256 ^ 130)).length < 256 ^ 126 := by decide +kernel
  have hne : ∀ r s, [0x30, 0x07, 0x02, 0x02, 0x00, 0x01, 0x02, 0x01, 0x01] ≠ encode r s := by
    intro r s h
    have hbody : (body r s).length < Der.lengthLimit := by
      have := congrArg List.length h
      simp only [encode_eq_encodeElement, Der.encodeElement, List.length_cons, List.length_append,
        List.length_nil] at this
      exact Der.lt_lengthLimit (k := 1) (by omega) (by decide)
    -- Written for some pair, the bytes would be read; but the first integer is padded.
    have hpadded : parse [0x30, 0x07, 0x02, 0x02, 0x00, 0x01, 0x02, 0x01, 0x01]
        = .error (.decode (.signature .integerPadded)) := rfl
    rw [h, parse_encode hbody] at hpadded
    cases hpadded
  exact ⟨hlen, ((parse_encode_inverse _).1 _ _ hlen).mpr rfl, hne,
    (parse_encode_inverse _).2.2 hne⟩

end SecpKey.Signature
