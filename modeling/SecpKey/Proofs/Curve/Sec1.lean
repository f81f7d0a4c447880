/-
  SecpKey.Proofs.Curve.Sec1

  Reading back the SEC1 forms of a point.  The power that `lift?` computes is a root of
  the right-hand side wherever there is one, so it is the second coordinate of the point
  or its opposite, and these two differ in parity.
-/
import SecpKey.Curve.Sec1
import SecpKey.Proofs.BigEndian
import SecpKey.Proofs.Curve.Group

namespace SecpKey

/-! ## Framing -/

/-- The size of the form that is asked for. -/
def formSize (compressed : Bool) : Nat := if compressed then compressedSize else uncompressedSize

theorem formSize_pos (compressed : Bool) : 0 < formSize compressed := by
  cases compressed <;> decide

theorem formSize_lt (compressed : Bool) : formSize compressed < 256 ^ 126 := by
  cases compressed <;> decide

theorem formSize_beq (compressed : Bool) :
    (formSize compressed == compressedSize) = compressed := by
  cases compressed <;> decide

theorem isFramed_compressed {lead : UInt8} {body : Bytes} (hlead : lead ∈ compressedLeads)
    (hlen : body.length = 32) : isFramed (lead :: body) = true := by
  have hsize : (lead :: body).length = compressedSize := by rw [List.length_cons, hlen]; rfl
  rw [isFramed, if_pos hsize]
  exact List.contains_iff_mem.mpr hlead

theorem isFramed_uncompressed {lead : UInt8} {body : Bytes} (hlead : lead ∈ uncompressedLeads)
    (hlen : body.length = 64) : isFramed (lead :: body) = true := by
  have hsize : (lead :: body).length = uncompressedSize := by rw [List.length_cons, hlen]; rfl
  have hother : (lead :: body).length ≠ compressedSize := by rw [hsize]; decide
  rw [isFramed, if_neg hother, if_pos hsize]
  exact List.contains_iff_mem.mpr hlead

/-- Framed bytes have one of the two sizes, so nothing is wrong with them. -/
theorem ensureFramed_of_isFramed {bytes : Bytes} (h : isFramed bytes = true) :
    ensureFramed (.bytes bytes) = .ok bytes := by
  have hsize : ¬ (bytes.length ≠ compressedSize ∧ bytes.length ≠ uncompressedSize) := by
    rintro ⟨hne, hne'⟩
    rw [isFramed, if_neg hne, if_neg hne'] at h
    cases h
  rw [ensureFramed, if_neg hsize, if_pos h]

theorem ensureFramed_eq_ok_iff {a : Argument} {bytes : Bytes} :
    ensureFramed a = .ok bytes ↔ a = .bytes bytes ∧ isFramed bytes = true := by
  constructor
  · intro h
    cases a with
    | bytes key =>
        rw [ensureFramed] at h
        split at h
        · cases h
        split at h
        · next hframed =>
          obtain rfl := Except.ok.inj h
          exact ⟨rfl, hframed⟩
        · cases h
    | released => cases h
    | absent => cases h
    | other typeName shape => cases h
  · rintro ⟨rfl, hframed⟩
    exact ensureFramed_of_isFramed hframed

namespace Point

theorem length_format (Q : Point) (compressed : Bool) :
    (Q.format compressed).length = formSize compressed := by
  cases compressed with
  | true => simp [format, formSize, compressedSize]
  | false => simp [format, formSize, uncompressedSize]

theorem isFramed_format (Q : Point) (compressed : Bool) :
    isFramed (Q.format compressed) = true := by
  cases compressed with
  | true =>
      refine isFramed_compressed ?_ (Bytes.ofNat_length 32 Q.x)
      split
      · decide
      · decide
  | false =>
      refine isFramed_uncompressed (by decide) ?_
      rw [List.length_append, Bytes.ofNat_length, Bytes.ofNat_length]

/-! ## Roots -/

theorem coordinates_lt {Q : Point} (h : Q.onCurve = true) :
    Q.x < fieldPrime ∧ Q.y < fieldPrime := by
  simp only [onCurve, Bool.and_eq_true, decide_eq_true_eq] at h
  exact h.1

theorem curveRhs_eq {Q : Point} (h : Q.onCurve = true) :
    curveRhs Q.x = Q.y * Q.y % fieldPrime := by
  simp only [onCurve, Bool.and_eq_true, beq_iff_eq] at h
  exact h.2.symm

/-- The candidate for the second coordinate above `x`. -/
def root (x : Nat) : Nat := Modular.pow fieldPrime (curveRhs x) ((fieldPrime + 1) / 4)

theorem root_lt (x : Nat) : root x < fieldPrime := by
  rw [root, Modular.pow_eq]
  exact mod_lt_fieldPrime _

/-- The candidate squares to what `y` squares to: the exponents add up to `p + 1`. -/
theorem cast_root_sq {Q : Point} (h : Q.onCurve = true) :
    (root Q.x : Field) ^ 2 = (Q.y : Field) ^ 2 := by
  have hexp : 2 * ((fieldPrime + 1) / 4) * 2 = fieldPrime + 1 := by decide
  have hroot : (root Q.x : Field) = (Q.y : Field) ^ (2 * ((fieldPrime + 1) / 4)) := by
    rw [root, Modular.pow_eq, ZMod.natCast_mod, Nat.cast_pow, curveRhs_eq h, ZMod.natCast_mod,
      Nat.cast_mul, ← pow_two, ← pow_mul]
  rw [hroot, ← pow_mul, hexp, pow_succ, ZMod.pow_card, pow_two]

/-- It is the second coordinate of the point or of its opposite. -/
theorem root_eq_or {Q : Point} (h : Q.onCurve = true) :
    root Q.x = Q.y ∨ root Q.x = Modular.sub fieldPrime 0 Q.y := by
  have hy := (coordinates_lt h).2
  rcases sq_eq_sq_iff_eq_or_eq_neg.mp (cast_root_sq h) with heq | hneg
  · exact Or.inl ((cast_inj (root_lt _) hy).mp heq)
  · refine Or.inr ((cast_inj (root_lt _) (Modular.sub_lt fieldPrime_pos)).mp ?_)
    rw [hneg, Modular.cast_sub hy.le, Nat.cast_zero, zero_sub]

theorem root_sq {Q : Point} (h : Q.onCurve = true) :
    root Q.x * root Q.x % fieldPrime = curveRhs Q.x := by
  rw [curveRhs_eq h, ← ZMod.natCast_eq_natCast_iff', Nat.cast_mul, Nat.cast_mul, ← pow_two,
    ← pow_two]
  exact cast_root_sq h

/-- A point is found from its first coordinate and the parity of the second. -/
theorem lift?_parity {Q : Point} (h : Q.onCurve = true) :
    lift? Q.x (Q.y % 2 == 1) = some Q := by
  obtain ⟨hx, hy⟩ := coordinates_lt h
  have hodd : fieldPrime % 2 = 1 := by decide
  have htest : (Q.x < fieldPrime && root Q.x * root Q.x % fieldPrime == curveRhs Q.x) = true := by
    rw [root_sq h, decide_eq_true hx, beq_self_eq_true, Bool.and_self]
  have hlift : lift? Q.x (Q.y % 2 == 1)
      = some ⟨Q.x, if (root Q.x % 2 == 1) == (Q.y % 2 == 1) then root Q.x
          else Modular.sub fieldPrime 0 (root Q.x)⟩ := if_pos htest
  have hy' : (if (root Q.x % 2 == 1) == (Q.y % 2 == 1) then root Q.x
      else Modular.sub fieldPrime 0 (root Q.x)) = Q.y := by
    rcases root_eq_or h with heq | hneg
    -- The root is the coordinate itself, and its parity is the one asked for.
    · rw [heq, beq_self_eq_true, if_pos rfl]
    · by_cases hy0 : Q.y = 0
      · rw [hneg, hy0]
        decide
      -- The opposite coordinate has the other parity, since the prime is odd.
      · have hsub : Modular.sub fieldPrime 0 Q.y = fieldPrime - Q.y := by
          rw [Modular.sub, Nat.zero_add, Nat.mod_eq_of_lt (by omega)]
        rw [hneg, hsub]
        have hparity : ((fieldPrime - Q.y) % 2 == 1) ≠ (Q.y % 2 == 1) := by
          rw [Ne, Bool.eq_iff_iff, beq_iff_eq, beq_iff_eq]
          omega
        rw [if_neg (by simpa using hparity), Modular.sub, Nat.zero_add,
          Nat.mod_eq_of_lt (by omega)]
        omega
  rw [hlift, hy']

/-! ## Both forms -/

theorem toNat_ofNat_coordinate {v : Nat} (h : v < fieldPrime) :
    Bytes.toNat (Bytes.ofNat 32 v) = v :=
  Bytes.toNat_ofNat (Nat.lt_trans h (by decide))

/-- Either form of a point of the curve is read as that point. -/
theorem parse?_format {Q : Point} (h : Q.onCurve = true) (compressed : Bool) :
    parse? (Q.format compressed) = some Q := by
  obtain ⟨hx, hy⟩ := coordinates_lt h
  cases compressed with
  | true =>
      -- The first byte says whether the second coordinate is odd.
      have hbody : ∀ odd, parseCompressed? odd (Bytes.ofNat 32 Q.x) = lift? Q.x odd := fun odd => by
        rw [parseCompressed?, if_pos (Bytes.ofNat_length _ _), toNat_ofNat_coordinate hx]
      rw [← lift?_parity h, format, if_pos rfl]
      by_cases heven : Q.y % 2 = 0
      · have hodd : (Q.y % 2 == 1) = false := by simp [heven]
        rw [if_pos heven, parse?, if_pos rfl, hbody, hodd]
      · have hodd : (Q.y % 2 == 1) = true := by simp; omega
        rw [if_neg heven, parse?, if_neg (by decide), if_pos rfl, hbody, hodd]
  | false =>
      have hlen := Bytes.ofNat_length 32 Q.x
      have htake : (Bytes.ofNat 32 Q.x ++ Bytes.ofNat 32 Q.y).take 32 = Bytes.ofNat 32 Q.x :=
        List.take_left' hlen
      have hdrop : (Bytes.ofNat 32 Q.x ++ Bytes.ofNat 32 Q.y).drop 32 = Bytes.ofNat 32 Q.y :=
        List.drop_left' hlen
      have hform : Q.format false = 0x04 :: (Bytes.ofNat 32 Q.x ++ Bytes.ofNat 32 Q.y) := rfl
      rw [hform, parse?, if_neg (by decide), if_neg (by decide), if_pos rfl, parsePair?, htake,
        hdrop, toNat_ofNat_coordinate hx, toNat_ofNat_coordinate hy]
      simp [h]

/-! ## What is read -/

/-- The point above `x` is on the curve, whichever of the two roots it takes. -/
theorem onCurve_of_lift? {x : Nat} {odd : Bool} {Q : Point} (h : lift? x odd = some Q) :
    Q.onCurve = true := by
  have hlift : lift? x odd
      = if (x < fieldPrime && root x * root x % fieldPrime == curveRhs x) = true then
          some ⟨x, if (root x % 2 == 1) == odd then root x
            else Modular.sub fieldPrime 0 (root x)⟩
        else none := rfl
  rw [hlift] at h
  split at h
  · next htest =>
    obtain rfl := Option.some.inj h
    simp only [Bool.and_eq_true, decide_eq_true_eq, beq_iff_eq] at htest
    simp only [onCurve, Bool.and_eq_true, decide_eq_true_eq, beq_iff_eq]
    split
    · exact ⟨⟨htest.1, root_lt x⟩, htest.2⟩
    · refine ⟨⟨htest.1, Modular.sub_lt fieldPrime_pos⟩, ?_⟩
      rw [← htest.2, ← ZMod.natCast_eq_natCast_iff', Nat.cast_mul, Nat.cast_mul,
        Modular.cast_sub (root_lt x).le, Nat.cast_zero, zero_sub, neg_mul_neg]
  · cases h

theorem onCurve_of_parseCompressed? {odd : Bool} {body : Bytes} {Q : Point}
    (h : parseCompressed? odd body = some Q) : Q.onCurve = true := by
  rw [parseCompressed?] at h
  split at h
  · exact onCurve_of_lift? h
  · cases h

theorem onCurve_of_parsePair? {parity : Option Bool} {body : Bytes} {Q : Point}
    (h : parsePair? parity body = some Q) : Q.onCurve = true := by
  simp only [parsePair?, Option.ite_none_right_eq_some, Bool.and_eq_true, Option.some.injEq] at h
  obtain ⟨⟨⟨-, hon⟩, -⟩, rfl⟩ := h
  exact hon

/-- Every point that is read is on the curve. -/
theorem onCurve_of_parse? {bytes : Bytes} {Q : Point} (h : parse? bytes = some Q) :
    Q.onCurve = true := by
  cases bytes with
  | nil => cases h
  | cons lead body =>
      rw [parse?] at h
      split at h
      · exact onCurve_of_parseCompressed? h
      split at h
      · exact onCurve_of_parseCompressed? h
      split at h
      · exact onCurve_of_parsePair? h
      split at h
      · exact onCurve_of_parsePair? h
      split at h
      · exact onCurve_of_parsePair? h
      · cases h

theorem length_of_parseCompressed? {odd : Bool} {body : Bytes} {Q : Point}
    (h : parseCompressed? odd body = some Q) : body.length = 32 := by
  rw [parseCompressed?] at h
  split at h
  · next hlen => exact hlen
  · cases h

theorem length_of_parsePair? {parity : Option Bool} {body : Bytes} {Q : Point}
    (h : parsePair? parity body = some Q) : body.length = 64 := by
  simp only [parsePair?, Option.ite_none_right_eq_some, Bool.and_eq_true, decide_eq_true_eq] at h
  exact h.1.1.1

/-- Nothing is read that is not framed. -/
theorem isFramed_of_parse? {bytes : Bytes} {Q : Point} (h : parse? bytes = some Q) :
    isFramed bytes = true := by
  cases bytes with
  | nil => cases h
  | cons lead body =>
      rw [parse?] at h
      split at h
      · next hlead =>
        exact isFramed_compressed (hlead ▸ by decide) (length_of_parseCompressed? h)
      split at h
      · next hlead =>
        exact isFramed_compressed (hlead ▸ by decide) (length_of_parseCompressed? h)
      split at h
      · next hlead => exact isFramed_uncompressed (hlead ▸ by decide) (length_of_parsePair? h)
      split at h
      · next hlead => exact isFramed_uncompressed (hlead ▸ by decide) (length_of_parsePair? h)
      split at h
      · next hlead => exact isFramed_uncompressed (hlead ▸ by decide) (length_of_parsePair? h)
      · cases h

end Point

end SecpKey
