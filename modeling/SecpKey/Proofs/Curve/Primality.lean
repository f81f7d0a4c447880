/-
  SecpKey.Proofs.Curve.Primality

  The size of the field and the order of the group are prime.  Each is shown by a chain
  of Lucas tests, where a test may use as factors what was tested before; the powers are
  those of `Modular.pow`.
-/
import SecpKey.Curve
import SecpKey.Proofs.Curve.Modular
import Mathlib.NumberTheory.LucasPrimality

namespace SecpKey

/-- Lucas's test of `m` with the base `a`: the listed factors make up `m - 1`, the power with
exponent `m - 1` is one, and no power with a factor less is. -/
def lucasTest (m a : Nat) (factors : List Nat) : Bool :=
  1 < m && factors.prod == m - 1 && Modular.pow m a (m - 1) == 1
    && factors.all (fun q => Modular.pow m a ((m - 1) / q) != 1)

/-- A number that passes the test with prime factors is prime. -/
theorem prime_of_lucas {m : Nat} (a : Nat) (factors : List Nat) (hprime : ∀ q ∈ factors, q.Prime)
    (h : lucasTest m a factors = true) : m.Prime := by
  simp only [lucasTest, Bool.and_eq_true, decide_eq_true_eq, beq_iff_eq, bne_iff_ne,
    List.all_eq_true] at h
  obtain ⟨⟨⟨hm, hprod⟩, hone⟩, hne⟩ := h
  -- The test computes on representatives, the theorem is about residues.
  have hpow : ∀ e, ((a : ZMod m) ^ e = 1 ↔ Modular.pow m a e = 1) := by
    intro e
    have hmod : 1 % m = 1 := Nat.mod_eq_of_lt hm
    rw [Modular.pow_eq, ← Nat.cast_pow, ← Nat.cast_one, ZMod.natCast_eq_natCast_iff', hmod]
  refine lucas_primality m a ((hpow _).mpr hone) ?_
  intro q hq hdvd
  -- A prime factor of the product is one of the listed factors.
  rw [← hprod] at hdvd
  obtain ⟨f, hf, hqf⟩ := (Prime.dvd_prod_iff hq.prime).mp hdvd
  obtain rfl := (Nat.prime_dvd_prime_iff_eq hq (hprime f hf)).mp hqf
  exact mt (hpow _).mp (hne q hf)

/-! ## Chains of tests -/

/-- One test: a number, the base, and the factors of the predecessor. -/
structure LucasStep where
  number : Nat
  base : Nat
  factors : List Nat

/-- Every step passes its test, with factors that were tested before or that are
small enough to be divided. -/
def certified (known : List Nat) : List LucasStep → Bool
  | [] => true
  | step :: rest =>
    step.factors.all (fun q => known.contains q || (2 ≤ q && q.minFac == q))
      && lucasTest step.number step.base step.factors && certified (step.number :: known) rest

/-- By induction on the chain: what was tested before is prime, so each test may rely on it. -/
theorem prime_of_certified {known : List Nat} {steps : List LucasStep}
    (hknown : ∀ q ∈ known, q.Prime) (h : certified known steps = true) :
    ∀ step ∈ steps, step.number.Prime := by
  induction steps generalizing known with
  | nil => exact fun _ hstep => absurd hstep List.not_mem_nil
  | cons first rest ih =>
      simp only [certified, Bool.and_eq_true] at h
      obtain ⟨⟨hfactors, htest⟩, hrest⟩ := h
      have hfirst : first.number.Prime := by
        refine prime_of_lucas first.base first.factors ?_ htest
        intro q hq
        have hq' := List.all_eq_true.mp hfactors q hq
        simp only [Bool.or_eq_true, Bool.and_eq_true, List.contains_iff_mem, decide_eq_true_eq,
          beq_iff_eq] at hq'
        rcases hq' with hmem | hsmall
        · exact hknown q hmem
        · exact Nat.prime_def_minFac.mpr hsmall
      intro step hstep
      rcases List.mem_cons.mp hstep with rfl | hmem
      · exact hfirst
      · refine ih ?_ hrest step hmem
        intro q hq
        rcases List.mem_cons.mp hq with rfl | hq
        · exact hfirst
        · exact hknown q hq

/-- The number that a chain ends with is prime. -/
theorem prime_of_last {steps : List LucasStep} {n : Nat} (h : certified [] steps = true)
    (hn : steps.getLast?.map LucasStep.number = some n) : n.Prime := by
  obtain ⟨step, hstep, rfl⟩ := Option.map_eq_some_iff.mp hn
  have hknown : ∀ q ∈ ([] : List Nat), q.Prime := fun _ hq => absurd hq List.not_mem_nil
  exact prime_of_certified hknown h step (List.mem_of_getLast? hstep)

/-! ## The order of the group and the size of the field -/

/-- The tests that lead to the order of the group. -/
def groupOrderSteps : List LucasStep :=
  [⟨16699, 3, [2, 3, 11, 11, 23]⟩,
   ⟨2861, 2, [2, 2, 5, 11, 13]⟩,
   ⟨85831, 3, [2, 3, 5, 2861]⟩,
   ⟨2011, 3, [2, 3, 5, 67]⟩,
   ⟨4681609, 23, [2, 2, 2, 3, 97, 2011]⟩,
   ⟨107361793816595537, 3, [2, 2, 2, 2, 16699, 85831, 4681609]⟩,
   ⟨4051, 10, [2, 3, 3, 3, 3, 5, 5]⟩,
   ⟨120233, 3, [2, 2, 2, 7, 19, 113]⟩,
   ⟨9349, 2, [2, 2, 3, 19, 41]⟩,
   ⟨44706919, 6, [2, 3, 797, 9349]⟩,
   ⟨174723607534414371449, 3, [2, 2, 2, 17, 59, 4051, 120233, 44706919]⟩,
   ⟨2731, 3, [2, 3, 5, 7, 13]⟩,
   ⟨305873, 3, [2, 2, 2, 2, 7, 2731]⟩,
   ⟨1409, 3, [2, 2, 2, 2, 2, 2, 2, 11]⟩,
   ⟨28181, 2, [2, 2, 5, 1409]⟩,
   ⟨545358713, 5, [2, 2, 2, 41, 59, 28181]⟩,
   ⟨1871, 14, [2, 5, 11, 17]⟩,
   ⟨1627771, 3, [2, 3, 5, 29, 1871]⟩,
   ⟨297159362677, 2, [2, 2, 3, 3, 11, 461, 1627771]⟩,
   ⟨29047611873442575647497758179, 2, [2, 293, 305873, 545358713, 297159362677]⟩,
   ⟨341948486974166000522343609283189, 2, [2, 2, 3, 3, 3, 109, 29047611873442575647497758179]⟩,
   ⟨groupOrder, 7, [2, 2, 2, 2, 2, 2, 3, 149, 631, 107361793816595537, 174723607534414371449,
     341948486974166000522343609283189]⟩]

/-- The tests that lead to the size of the field. -/
def fieldPrimeSteps : List LucasStep :=
  [⟨13441, 11, [2, 2, 2, 2, 2, 2, 2, 3, 5, 7]⟩,
   ⟨7723, 3, [2, 3, 3, 3, 11, 13]⟩,
   ⟨5323, 5, [2, 3, 887]⟩,
   ⟨2621, 2, [2, 2, 5, 131]⟩,
   ⟨24809, 6, [2, 2, 2, 7, 443]⟩,
   ⟨1373, 2, [2, 2, 7, 7, 7]⟩,
   ⟨13331831, 13, [2, 5, 971, 1373]⟩,
   ⟨173378833005251801, 6, [2, 2, 2, 5, 5, 2621, 24809, 13331831]⟩,
   ⟨22149492674086928081353, 5, [2, 2, 2, 3, 5323, 173378833005251801]⟩,
   ⟨132896956044521568488119, 6, [2, 3, 22149492674086928081353]⟩,
   ⟨1627, 3, [2, 3, 271]⟩,
   ⟨2657, 3, [2, 2, 2, 2, 2, 83]⟩,
   ⟨4423, 3, [2, 3, 11, 67]⟩,
   ⟨41201, 3, [2, 2, 2, 2, 5, 5, 103]⟩,
   ⟨96557, 2, [2, 2, 101, 239]⟩,
   ⟨20113, 10, [2, 2, 2, 2, 3, 419]⟩,
   ⟨1206781, 10, [2, 2, 3, 5, 20113]⟩,
   ⟨7240687, 3, [2, 3, 1206781]⟩,
   ⟨107590001, 3, [2, 2, 2, 2, 5, 5, 5, 5, 7, 29, 53]⟩,
   ⟨255515944373312847190720520512484175977, 3, [2, 2, 2, 7, 7, 11, 1627, 2657, 4423, 41201, 96557,
     7240687, 107590001]⟩,
   ⟨205115282021455665897114700593932402728804164701536103180137503955397371, 10, [2, 3, 5, 29, 29,
     31, 7723, 132896956044521568488119, 255515944373312847190720520512484175977]⟩,
   ⟨fieldPrime, 3, [2, 3, 7, 13441,
     205115282021455665897114700593932402728804164701536103180137503955397371]⟩]

theorem certified_steps :
    (certified [] groupOrderSteps && certified [] fieldPrimeSteps) = true := by
  decide +kernel

theorem groupOrder_prime : Nat.Prime groupOrder :=
  prime_of_last (Bool.and_eq_true_iff.mp certified_steps).1 rfl

theorem fieldPrime_prime : Nat.Prime fieldPrime :=
  prime_of_last (Bool.and_eq_true_iff.mp certified_steps).2 rfl

instance : Fact groupOrder.Prime := ⟨groupOrder_prime⟩

instance : Fact fieldPrime.Prime := ⟨fieldPrime_prime⟩

end SecpKey
