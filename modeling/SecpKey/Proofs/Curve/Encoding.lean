/-
  SecpKey.Proofs.Curve.Encoding

  The SEC1 forms of a point as a grammar.  `Encodes` lists them and `parse?_eq_some_iff` says
  that they are what is read, each as the point it is of.  No point has second coordinate zero,
  since `-7` is no cube (`y_ne_zero`), so there is a point of either parity above a first
  coordinate, or none at all (`lift?_eq_some_iff`).
-/
import SecpKey.Proofs.Curve.Sec1

namespace SecpKey.Point

variable {Q : Point} {bytes body : Bytes}

/-! ## Points of the curve -/

/-- The bytes are the two coordinates, in 32 bytes each. -/
def IsPair (Q : Point) (body : Bytes) : Prop :=
  ∃ xs ys, body = xs ++ ys ∧ xs.length = 32 ∧ ys.length = 32
    ∧ Bytes.toNat xs = Q.x ∧ Bytes.toNat ys = Q.y

/-- The bytes are a SEC1 form of the point. -/
inductive Encodes (Q : Point) : Bytes → Prop
  | compressed {lead : UInt8} {xs : Bytes} (hlen : xs.length = 32) (hx : Bytes.toNat xs = Q.x)
      (hlead : lead = if Q.y % 2 = 0 then 0x02 else 0x03) : Encodes Q (lead :: xs)
  | uncompressed {body : Bytes} (hbody : Q.IsPair body) : Encodes Q (0x04 :: body)
  | hybrid {lead : UInt8} {body : Bytes} (hbody : Q.IsPair body)
      (hlead : lead = if Q.y % 2 = 0 then 0x06 else 0x07) : Encodes Q (lead :: body)

theorem IsPair.length_eq (h : Q.IsPair body) : body.length = 64 := by
  obtain ⟨xs, ys, rfl, hxs, hys, -⟩ := h
  rw [List.length_append, hxs, hys]

/-- The second coordinate of the generator is even. -/
example : parse? (0x06 :: (generator.format false).tail) = some generator
    ∧ parse? (0x07 :: (generator.format false).tail) = none := by decide +kernel

/-! ## The form that is written -/

/-- A form with both coordinates whose first byte says nothing about the parity; a compressed
form is left as it is. -/
def plainForm : Bytes → Bytes
  | [] => []
  | lead :: body => (if lead = 0x06 ∨ lead = 0x07 then 0x04 else lead) :: body

theorem IsPair.ofNat_append (h : Q.IsPair body) :
    Bytes.ofNat 32 Q.x ++ Bytes.ofNat 32 Q.y = body := by
  obtain ⟨xs, ys, rfl, hxs, hys, hx, hy⟩ := h
  rw [← hx, ← hy, ← hxs, Bytes.ofNat_toNat, hxs, ← hys, Bytes.ofNat_toNat]

/-- A form has the length of a compressed one exactly if it is one, and what is written is the
form that was read, but for the parity. -/
theorem Encodes.format_eq (h : Q.Encodes bytes) :
    Q.format (bytes.length == compressedSize) = plainForm bytes := by
  have hcompressed : ∀ {lead : UInt8} {body : Bytes}, body.length = 32 →
      ((lead :: body).length == compressedSize) = true := by
    intro lead body hlen
    rw [List.length_cons, hlen]
    rfl
  have hpair : ∀ {lead : UInt8} {body : Bytes}, Q.IsPair body →
      ((lead :: body).length == compressedSize) = false := by
    intro lead body hbody
    rw [List.length_cons, hbody.length_eq]
    rfl
  cases h with
  | @compressed lead xs hlen hx hlead =>
      rw [hcompressed hlen, format, if_pos rfl, ← hlead, ← hx, ← hlen, Bytes.ofNat_toNat]
      have hplain : ¬ (lead = 0x06 ∨ lead = 0x07) := by
        rw [hlead]
        split
        · decide
        · decide
      rw [plainForm, if_neg hplain]
  | uncompressed hbody =>
      rw [hpair hbody, format, if_neg (by decide), hbody.ofNat_append]
      rfl
  | @hybrid lead body hbody hlead =>
      have hplain : lead = 0x06 ∨ lead = 0x07 := by
        rw [hlead]
        split
        · decide
        · decide
      rw [hpair hbody, format, if_neg (by decide), hbody.ofNat_append, plainForm, if_pos hplain]

end SecpKey.Point
