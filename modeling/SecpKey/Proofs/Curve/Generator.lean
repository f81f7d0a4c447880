/-
  SecpKey.Proofs.Curve.Generator

  The forms of a generator say which point it is, whatever the parameters of the curve.  Both
  coordinates are below the modulus and so fit the width of the modulus
  (`encodeInt_residue`), which the plain form shows in full.  The compressed form shows of the
  second one its parity only: on a curve over an odd prime the first coordinate leaves two
  values for it, which have different parities (`eq_of_dvd_sq_sub_sq`).
-/
import SecpKey.Curve
import SecpKey.Proofs.Width
import Mathlib.Data.Int.ModEq
import Mathlib.Data.Nat.Prime.Int
import Mathlib.Algebra.Order.Group.Unbundled.Int

namespace SecpKey

/-! ## Residues in the width of their modulus -/

theorem residue_lt {p x : Int} (hx : 0 ≤ x ∧ x < p) : x.toNat < 256 ^ byteLength p := by
  have hp : p.natAbs < 256 ^ byteLength p := (Bytes.byteLength_le_iff _ _).mp (Nat.le_refl _)
  omega

theorem encodeInt_residue {p x : Int} (hx : 0 ≤ x ∧ x < p) :
    encodeInt x (byteLength p) = .ok (Bytes.ofNat (byteLength p) x.toNat) := by
  obtain ⟨n, rfl⟩ := Int.eq_ofNat_of_zero_le hx.1
  exact (encodeInt_natCast n (byteLength p)).trans (if_pos (residue_lt hx))

/-- Residues with equal squares modulo an odd prime are opposite or equal, and opposite ones
differ in parity. -/
theorem eq_of_dvd_sq_sub_sq {p y y' : Int} (hp : Prime p) (hodd : p % 2 = 1)
    (hy : 0 ≤ y ∧ y < p) (hy' : 0 ≤ y' ∧ y' < p) (h : p ∣ y * y - y' * y')
    (hparity : y % 2 = y' % 2) : y = y' := by
  rw [mul_self_sub_mul_self] at h
  rcases hp.dvd_or_dvd h with hsum | hdiff
  · -- The sum is zero or the prime, which is odd.
    obtain hlt | hge := Int.lt_or_le (y + y') p
    · have hzero : y + y' = 0 := Int.eq_zero_of_dvd_of_nonneg_of_lt (by omega) hlt hsum
      omega
    · have hdvd : p ∣ y + y' - p := Int.dvd_sub hsum (Int.dvd_refl p)
      have hzero : y + y' - p = 0 :=
        Int.eq_zero_of_dvd_of_nonneg_of_lt (by omega) (by omega) hdvd
      omega
  · have habs : |y - y'| < p := abs_lt.mpr ⟨by omega, by omega⟩
    exact Int.sub_eq_zero.mp (Int.eq_zero_of_abs_lt_dvd hdiff habs)

namespace Curve

variable {c d : Curve}

/-! ## The equation -/

theorem contains_eq_ok_true_iff (x y : Int) :
    c.contains x y = .ok true ↔ c.p ≠ 0 ∧ c.p ∣ y * y - (x * x * x + c.a * x + c.b) := by
  rw [contains]
  by_cases hp : c.p = 0
  · rw [if_pos hp]
    exact iff_of_false nofun fun h => h.1 hp
  · rw [if_neg hp, Except.ok.injEq, beq_iff_eq, Int.dvd_iff_emod_eq_zero, and_iff_right hp]

theorem contains_congr {x x' y y' : Int} (hx : x ≡ x' [ZMOD c.p]) (hy : y ≡ y' [ZMOD c.p]) :
    c.contains x y = c.contains x' y' := by
  have hrhs : x * x * x + c.a * x + c.b ≡ x' * x' * x' + c.a * x' + c.b [ZMOD c.p] :=
    (((hx.mul hx).mul hx).add (hx.mul_left c.a)).add_right c.b
  have hdiff := (hy.mul hy).sub hrhs
  rw [contains, contains, hdiff]

theorem contains_neg (x y : Int) : c.contains x (-y) = c.contains x y := by
  rw [contains, contains, Int.neg_mul_neg]

/-! ## The forms -/

/-- The modulus is positive and the coordinates of the generator are residues. -/
structure Reduced (c : Curve) : Prop where
  p_pos : 0 < c.p
  gx : 0 ≤ c.gx ∧ c.gx < c.p
  gy : 0 ≤ c.gy ∧ c.gy < c.p

/-- The curves have the same equation over the same field. -/
structure SameEquation (c d : Curve) : Prop where
  p : c.p = d.p
  a : c.a = d.a
  b : c.b = d.b

theorem generatorBytes_plain (h : c.Reduced) :
    c.generatorBytes false
      = .ok (0x04 :: (Bytes.ofNat c.fieldSize c.gx.toNat
          ++ Bytes.ofNat c.fieldSize c.gy.toNat)) := by
  have hx : encodeInt c.gx c.fieldSize = _ := encodeInt_residue h.gx
  have hy : encodeInt c.gy c.fieldSize = _ := encodeInt_residue h.gy
  rw [generatorBytes, if_neg (by decide), hx, hy]
  rfl

theorem generatorBytes_compressed (h : c.Reduced) :
    c.generatorBytes true
      = .ok ((if c.gy % 2 = 0 then 0x02 else 0x03) :: Bytes.ofNat c.fieldSize c.gx.toNat) := by
  have hx : encodeInt c.gx c.fieldSize = _ := encodeInt_residue h.gx
  rw [generatorBytes, if_pos rfl, hx]
  rfl

/-- The size of a form. -/
def generatorSize (c : Curve) (compressed : Bool) : Nat :=
  if compressed then 1 + c.fieldSize else 1 + 2 * c.fieldSize

theorem exists_generatorBytes (h : c.Reduced) (compressed : Bool) :
    ∃ b, c.generatorBytes compressed = .ok b ∧ b.length = c.generatorSize compressed := by
  cases compressed with
  | false =>
      refine ⟨_, generatorBytes_plain h, ?_⟩
      rw [List.length_cons, List.length_append, Bytes.ofNat_length, Bytes.ofNat_length,
        generatorSize, if_neg (by decide)]
      omega
  | true =>
      refine ⟨_, generatorBytes_compressed h, ?_⟩
      rw [List.length_cons, Bytes.ofNat_length, generatorSize, if_pos rfl, Nat.add_comm]

/-- A form of one size has the coordinates of one size. -/
theorem fieldSize_eq (hc : c.Reduced) (hd : d.Reduced) {compressed : Bool}
    (h : c.generatorBytes compressed = d.generatorBytes compressed) :
    c.fieldSize = d.fieldSize := by
  obtain ⟨b, hb, hsize⟩ := exists_generatorBytes hc compressed
  obtain ⟨b', hb', hsize'⟩ := exists_generatorBytes hd compressed
  obtain rfl : b = b' := Except.ok.inj (hb.symm.trans (h.trans hb'))
  rw [hsize, generatorSize, generatorSize] at hsize'
  split at hsize' <;> omega

/-- Residues are equal if their encodings in one width are. -/
theorem eq_of_ofNat_toNat {p q x y : Int} (hx : 0 ≤ x ∧ x < p) (hy : 0 ≤ y ∧ y < q)
    (hsize : byteLength p = byteLength q)
    (h : Bytes.ofNat (byteLength p) x.toNat = Bytes.ofNat (byteLength q) y.toNat) : x = y := by
  rw [hsize] at h
  have hnat : x.toNat = y.toNat := (Bytes.ofNat_inj (hsize ▸ residue_lt hx) (residue_lt hy)).mp h
  omega

/-- The plain form gives the generator, also among curves over different fields. -/
theorem generator_eq_of_plain (hc : c.Reduced) (hd : d.Reduced)
    (h : c.generatorBytes false = d.generatorBytes false) : c.generator = d.generator := by
  have hsize : c.fieldSize = d.fieldSize := fieldSize_eq hc hd h
  rw [generatorBytes_plain hc, generatorBytes_plain hd, Except.ok.injEq, List.cons.injEq] at h
  obtain ⟨hx, hy⟩ := List.append_inj h.2 (by rw [Bytes.ofNat_length, Bytes.ofNat_length, hsize])
  exact Prod.ext (eq_of_ofNat_toNat hc.gx hd.gx hsize hx) (eq_of_ofNat_toNat hc.gy hd.gy hsize hy)

theorem parity_eq_of_lead {y y' : Int}
    (h : (if y % 2 = 0 then 0x02 else 0x03 : UInt8) = if y' % 2 = 0 then 0x02 else 0x03) :
    y % 2 = y' % 2 := by
  split at h <;> split at h
  · omega
  · exact absurd h (by decide)
  · exact absurd h (by decide)
  · omega

/-- The compressed form gives the generator among the points of a curve. -/
theorem generator_eq_of_compressed (hc : c.Reduced) (hd : d.Reduced) (hsame : SameEquation c d)
    (hp : c.p.toNat.Prime) (hodd : c.p % 2 = 1) (hon : c.contains c.gx c.gy = .ok true)
    (hon' : d.contains d.gx d.gy = .ok true)
    (h : c.generatorBytes true = d.generatorBytes true) : c.generator = d.generator := by
  have hsize : c.fieldSize = d.fieldSize := fieldSize_eq hc hd h
  rw [generatorBytes_compressed hc, generatorBytes_compressed hd, Except.ok.injEq,
    List.cons.injEq] at h
  have hx : c.gx = d.gx := eq_of_ofNat_toNat hc.gx hd.gx hsize h.2
  rw [contains_eq_ok_true_iff] at hon hon'
  rw [← hsame.p, ← hsame.a, ← hsame.b, ← hx] at hon'
  have hprime : Prime c.p := by
    rw [← Int.toNat_of_nonneg (Int.le_of_lt hc.p_pos)]
    exact Nat.prime_iff_prime_int.mp hp
  have hsq : c.p ∣ c.gy * c.gy - d.gy * d.gy := by
    have hdvd := Int.dvd_sub hon.2 hon'.2
    rwa [sub_sub_sub_cancel_right] at hdvd
  exact Prod.ext hx
    (eq_of_dvd_sq_sub_sq hprime hodd hc.gy (hsame.p ▸ hd.gy) hsq (parity_eq_of_lead h.1))

/-- What the forms of a generator and the equation say of points. -/
structure IdentifiesPoints (c : Curve) : Prop where
  encodes : c.Reduced → ∀ compressed,
    ∃ b, c.generatorBytes compressed = .ok b ∧ b.length = c.generatorSize compressed
  plain : ∀ d : Curve, c.Reduced → d.Reduced →
    c.generatorBytes false = d.generatorBytes false → c.generator = d.generator
  compressed : ∀ d : Curve, c.Reduced → d.Reduced → SameEquation c d → c.p.toNat.Prime →
    c.p % 2 = 1 → c.contains c.gx c.gy = .ok true → d.contains d.gx d.gy = .ok true →
    c.generatorBytes true = d.generatorBytes true → c.generator = d.generator
  residues : ∀ x x' y y' : Int, x ≡ x' [ZMOD c.p] → y ≡ y' [ZMOD c.p] →
    c.contains x y = c.contains x' y'
  opposite : ∀ x y : Int, c.contains x (-y) = c.contains x y

/-- The forms of the generator identify it, and the equation is one of residues, in which the
sign of the second coordinate does not show. -/
theorem identifiesPoints (c : Curve) : c.IdentifiesPoints where
  encodes h := exists_generatorBytes h
  plain _ hc hd h := generator_eq_of_plain hc hd h
  compressed _ hc hd hsame hp hodd hon hon' h :=
    generator_eq_of_compressed hc hd hsame hp hodd hon hon' h
  residues _ _ _ _ hx hy := contains_congr hx hy
  opposite := contains_neg

/-- The points over seven with second coordinates three and four are opposite. -/
def overSeven (gy : Int) : Curve :=
  { name := "seven", oid := [], p := 7, a := 0, b := 2, n := 9, h := 1, gx := 0, gy := gy }

theorem identifiesPoints_overSeven :
    (overSeven 3).Reduced ∧ (overSeven 4).Reduced ∧ SameEquation (overSeven 3) (overSeven 4)
      ∧ (overSeven 3).p.toNat.Prime ∧ (overSeven 3).p % 2 = 1
      ∧ (overSeven 3).contains 0 3 = .ok true ∧ (overSeven 4).contains 0 4 = .ok true
      ∧ (overSeven 3).generatorBytes true ≠ (overSeven 4).generatorBytes true
      ∧ (overSeven 3).contains 7 (-10) = .ok true := by
  have hthree : (overSeven 3).Reduced := ⟨by decide, by decide, by decide⟩
  have hfour : (overSeven 4).Reduced := ⟨by decide, by decide, by decide⟩
  have hsame : SameEquation (overSeven 3) (overSeven 4) := ⟨rfl, rfl, rfl⟩
  have hprime : (overSeven 3).p.toNat.Prime := by decide
  have hon : (overSeven 3).contains 0 3 = .ok true := by decide
  have hon' : (overSeven 4).contains 0 4 = .ok true := by decide
  refine ⟨hthree, hfour, hsame, hprime, rfl, hon, hon', ?_, ?_⟩
  · intro h
    have hgen := (identifiesPoints (overSeven 3)).compressed _ hthree hfour hsame hprime rfl hon
      hon' h
    exact absurd hgen (by decide)
  · rw [(identifiesPoints (overSeven 3)).opposite 7 10]
    exact ((identifiesPoints (overSeven 3)).residues 7 0 10 3 (by decide) (by decide)).trans hon

end Curve

end SecpKey
