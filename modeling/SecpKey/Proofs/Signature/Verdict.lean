/-
  SecpKey.Proofs.Signature.Verdict

  What verifying a signature comes to.  `Verdict` gives the four rules in their order:
  form, ranges, size of the digest, and only then the answer of the curve, which is asked
  about the low-S form.  `verifyDigest` reaches a verdict on every input, so none of its
  steps can fail, and no other verdict than the one that the rules allow.
-/
import SecpKey.Backend.Secp256k1
import SecpKey.Signature
import SecpKey.Proofs.Signature.Codec

namespace SecpKey.Signature

variable {P : Type}

/-! ## Ranges -/

/-- Both numbers lie in `[1, n-1]`. -/
def InRange (r s : Nat) : Prop := (1 ≤ r ∧ r < groupOrder) ∧ 1 ≤ s ∧ s < groupOrder

theorem inRange_iff {r s : Nat} : inRange r s = true ↔ InRange r s := by
  simp only [inRange, InRange, Bool.and_eq_true, decide_eq_true_eq, Nat.lt_iff_add_one_le,
    Nat.zero_add, and_assoc]

theorem InRange.sub {r s : Nat} (h : InRange r s) : InRange r (groupOrder - s) := by
  obtain ⟨hr, hs, hs'⟩ := h
  exact ⟨hr, by omega, by omega⟩

/-- Numbers in range have a DER form of a few hundred bytes at most. -/
theorem InRange.body_length_lt {r s : Nat} (h : InRange r s) :
    (body r s).length < Der.lengthLimit := by
  have hn : groupOrder < 256 ^ 32 := by decide
  have hinteger : ∀ v, v < groupOrder → (Der.encodeInteger v).length ≤ 33 + 129 := by
    intro v hv
    have hlen := Der.integerContents_length_le (Nat.lt_trans hv hn) (by decide)
    have hlimit := Der.lt_lengthLimit (k := 1) (Nat.lt_of_le_of_lt hlen (by decide)) (by decide)
    exact (Der.encodeElement_length_le .integer _ hlimit).trans (Nat.add_le_add_right hlen 129)
  have hr := hinteger r h.1.2
  have hs := hinteger s h.2.2
  refine Der.lt_lengthLimit (k := 2) ?_ (by decide)
  rw [body, List.length_append]
  omega

theorem InRange.parse_encode {r s : Nat} (h : InRange r s) : parse (encode r s) = .ok (r, s) :=
  Signature.parse_encode h.body_length_lt

/-! ## The low-S form -/

/-- The group order is odd, so the lower of `s` and `n - s` is at most half of it. -/
theorem InRange.lower {r s : Nat} (h : InRange r s) :
    1 ≤ min s (groupOrder - s) ∧ min s (groupOrder - s) ≤ groupOrder / 2 := by
  obtain ⟨-, hs, hs'⟩ := h
  omega

theorem InRange.low {r s : Nat} (h : InRange r s) : InRange r (min s (groupOrder - s)) := by
  refine ⟨h.1, h.lower.1, ?_⟩
  have := h.2.2
  omega

theorem normalizeS_eq {s : Nat} (h : s < groupOrder) :
    normalizeS s = (min s (groupOrder - s) : Nat) := by
  have hodd : groupOrder % 2 = 1 := by decide
  unfold normalizeS
  split
  · omega
  · omega

theorem InRange.encodeInts_normalizeS {r s : Nat} (h : InRange r s) :
    encodeInts r (normalizeS s) = .ok (encode r (min s (groupOrder - s))) := by
  rw [normalizeS_eq h.2.2, encodeInts, if_neg (by omega), Int.toNat_natCast, Int.toNat_natCast]

/-! ## One rule for each kind of signature -/

section Rules

variable {backend : Backend P} {Q : P} {digest b : Bytes} {r s : Nat}

theorem verifyDigest_malformed (h : ∀ r s, b ≠ encode r s) :
    verifyDigest backend Q digest b = .ok .indeterminate := by
  rw [verifyDigest, verifyUnder]
  cases hb : parse b with
  | error e => rfl
  | ok pair => exact absurd (parse_eq_ok_iff.mp hb).1 (h pair.1 pair.2)

theorem verifyDigest_outOfRange (h : ¬ InRange r s) (hb : (body r s).length < Der.lengthLimit) :
    verifyDigest backend Q digest (encode r s) = .ok .invalid := by
  rw [verifyDigest, verifyUnder, parse_encode hb]
  exact if_neg (mt inRange_iff.mp h)

/-- In range, the backend is asked about the low-S form and its answer is the outcome. -/
theorem verifyDigest_inRange (h : InRange r s) :
    verifyDigest backend Q digest (encode r s)
      = .ok (resultOf (backend.verify? Q (encode r (min s (groupOrder - s))) digest)) := by
  rw [verifyDigest, verifyUnder, h.parse_encode]
  simp only [if_pos (inRange_iff.mpr h), h.encodeInts_normalizeS]
  rfl

/-- About a low-S signature the backend is asked as it stands. -/
theorem verifyDigest_low (h : InRange r s) (hlow : s ≤ groupOrder / 2) :
    verifyDigest backend Q digest (encode r s)
      = .ok (resultOf (backend.verify? Q (encode r s) digest)) := by
  rw [verifyDigest_inRange h, Nat.min_eq_left (by omega)]

/-- The one thing that verifying can do without is a point. -/
theorem verifyUnder_ok_or_noPoint (backend : Backend P) (point : Option P) (digest b : Bytes) :
    (∃ result, verifyUnder backend point digest b = .ok result)
      ∨ point = none ∧ verifyUnder backend point digest b = .error (.fault .jobWithoutPoint) := by
  unfold verifyUnder
  cases parse b with
  | error e => exact .inl ⟨_, rfl⟩
  | ok pair =>
      obtain ⟨r, s⟩ := pair
      dsimp only
      split
      · next hrange =>
        rw [(inRange_iff.mp hrange).encodeInts_normalizeS]
        cases point with
        | none => exact .inr ⟨rfl, rfl⟩
        | some Q => exact .inl ⟨_, rfl⟩
      · exact .inl ⟨_, rfl⟩

theorem exists_verifyDigest (backend : Backend P) (Q : P) (digest signature : Bytes) :
    ∃ result, verifyDigest backend Q digest signature = .ok result := by
  rcases verifyUnder_ok_or_noPoint backend (some Q) digest signature with hok | ⟨hnone, -⟩
  · exact hok
  · cases hnone

end Rules

/-! ## Verdicts -/

/-- The backend answers on low-S signatures, and refuses to answer exactly for a digest of
the wrong size. -/
def RefusesDigestsOnly (backend : Backend P) : Prop :=
  ∀ (Q : P) (r s : Nat) (digest : Bytes), InRange r s → s ≤ groupOrder / 2 →
    (backend.verify? Q (encode r s) digest = none ↔ digest.length ≠ digestSize)

theorem refusesDigestsOnly_secp256k1 : RefusesDigestsOnly Backend.secp256k1 := by
  intro Q r s digest h _
  simp only [Backend.secp256k1, h.parse_encode]
  split
  · next hd => simp [hd]
  · next hd => simp [hd]

/-- What a signature of a digest comes to, where `check` is the curve's answer for this
digest. -/
inductive Verdict (check : Bytes → Option Bool) (digest : Bytes) : Bytes → VerifyResult → Prop
  /-- No DER form of two numbers. -/
  | malformed {b : Bytes} (h : ∀ r s, b ≠ encode r s) : Verdict check digest b .indeterminate
  /-- A number out of range; the digest does not matter. -/
  | outOfRange {r s : Nat} (h : ¬ InRange r s) : Verdict check digest (encode r s) .invalid
  /-- A digest of the wrong size. -/
  | digestRefused {r s : Nat} (h : InRange r s) (hd : digest.length ≠ digestSize) :
      Verdict check digest (encode r s) .indeterminate
  /-- The answer for the low-S form. -/
  | answered {r s : Nat} {yes : Bool} (h : InRange r s) (hd : digest.length = digestSize)
      (hc : check (encode r (min s (groupOrder - s))) = some yes) :
      Verdict check digest (encode r s) (if yes then .valid else .invalid)

section Verdicts

variable {backend : Backend P} {Q : P} {digest b : Bytes} {o : VerifyResult}

/-- A verdict of the rules is what `verifyDigest` gives. -/
theorem verifyDigest_of_verdict (hV : RefusesDigestsOnly backend) (hb : b.length < 256 ^ 126)
    (h : Verdict (backend.verify? Q · digest) digest b o) :
    verifyDigest backend Q digest b = .ok o := by
  cases h with
  | malformed h => exact verifyDigest_malformed h
  | @outOfRange r s h =>
      -- The numbers may have any size here; the bound on `b` is what lets them be read.
      have hlt := Der.length_lt_encodeElement .sequence (body r s)
      rw [← encode_eq_encodeElement] at hlt
      exact verifyDigest_outOfRange h (Der.lt_lengthLimit (hlt.trans hb) (by decide))
  | @digestRefused r s h hd =>
      rw [verifyDigest_inRange h, (hV Q _ _ digest h.low h.lower.2).mpr hd]
      rfl
  | @answered r s yes h hd hc =>
      rw [verifyDigest_inRange h, hc]
      cases yes <;> rfl

/-- The rules leave no signature without a verdict. -/
theorem exists_verdict (hV : RefusesDigestsOnly backend) (Q : P) (digest b : Bytes) :
    ∃ o, Verdict (backend.verify? Q · digest) digest b o := by
  -- The questions in the order of the rules.
  by_cases hform : ∀ r s, b ≠ encode r s
  · exact ⟨_, .malformed hform⟩
  simp only [not_forall, not_not] at hform
  obtain ⟨r, s, rfl⟩ := hform
  by_cases h : InRange r s
  · by_cases hd : digest.length = digestSize
    · obtain ⟨yes, hc⟩ := Option.ne_none_iff_exists'.mp
        fun h0 => (hV Q _ _ digest h.low h.lower.2).mp h0 hd
      exact ⟨_, .answered h hd hc⟩
    · exact ⟨_, .digestRefused h hd⟩
  · exact ⟨_, .outOfRange h⟩

/-- Verifying reaches the one verdict that the rules give, for every digest and every byte
string.  The integers that are written for the backend are never negative, the second one
lies in `[1, n/2]`, and `(r, s)` and `(r, n - s)` fare alike. -/
theorem verifyDigest_reaches_verdict (hV : RefusesDigestsOnly backend)
    (hb : b.length < 256 ^ 126) :
    (∃ o, verifyDigest backend Q digest b = .ok o)
      ∧ (∀ o, verifyDigest backend Q digest b = .ok o
          ↔ Verdict (backend.verify? Q · digest) digest b o)
      ∧ (∀ r s, InRange r s →
          encodeInts r (normalizeS s) = .ok (encode r (min s (groupOrder - s)))
            ∧ 1 ≤ min s (groupOrder - s) ∧ min s (groupOrder - s) ≤ groupOrder / 2)
      ∧ (∀ r s, InRange r s →
          verifyDigest backend Q digest (encode r s)
            = verifyDigest backend Q digest (encode r (groupOrder - s))) := by
  -- A verdict exists and is what is given, so it is the only one.
  obtain ⟨o, ho⟩ := exists_verdict hV Q digest b
  have hval := verifyDigest_of_verdict hV hb ho
  refine ⟨⟨o, hval⟩, ?_, ?_, ?_⟩
  · intro o'
    constructor
    · intro h
      rw [hval] at h
      cases h
      exact ho
    · exact verifyDigest_of_verdict hV hb
  · intro r s h
    exact ⟨h.encodeInts_normalizeS, h.lower⟩
  · intro r s h
    have hs := h.2
    -- Folding twice is folding once.
    have hfold : min (groupOrder - s) (groupOrder - (groupOrder - s)) = min s (groupOrder - s) := by
      omega
    rw [verifyDigest_inRange h, verifyDigest_inRange h.sub, hfold]

/-- Out of range wins over a digest that would be refused. -/
theorem verifyDigest_reaches_verdict_outOfRange :
    RefusesDigestsOnly Backend.secp256k1
      ∧ (encode 1 groupOrder).length < 256 ^ 126
      ∧ verifyDigest Backend.secp256k1 .generator [] (encode 1 groupOrder) = .ok .invalid := by
  have hlen : (encode 1 groupOrder).length < 256 ^ 126 := by decide +kernel
  have hout : ¬ InRange 1 groupOrder := fun h => Nat.lt_irrefl _ h.2.2
  exact ⟨refusesDigestsOnly_secp256k1, hlen,
    ((verifyDigest_reaches_verdict refusesDigestsOnly_secp256k1 hlen).2.1 _).mpr (.outOfRange hout)⟩

end Verdicts

end SecpKey.Signature
