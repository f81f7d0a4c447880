/-
  SecpKey.Proofs.Except

  Chains of readers and checks.  The whole succeeds exactly when its parts do
  (`bind_eq_ok`, `mapError_eq_ok`), and `FailsOnly` bounds the ways in which it can fail
  by those of its parts.  Two of them `Agree` if they fail alike or their values are related,
  which again goes from the parts to the whole.
-/
import Mathlib.Tactic.TypeStar

namespace SecpKey

variable {ε ε' α β : Type}

theorem bind_eq_ok {x : Except ε α} {f : α → Except ε β} {b : β} :
    (x >>= f) = .ok b ↔ ∃ a, x = .ok a ∧ f a = .ok b := by
  cases x <;> simp [bind, Except.bind]

theorem mapError_eq_ok {x : Except ε α} {f : ε → ε'} {a : α} :
    x.mapError f = .ok a ↔ x = .ok a := by
  cases x with
  | error e =>
      show (.error (f e) : Except ε' α) = .ok a ↔ (.error e : Except ε α) = .ok a
      simp only [reduceCtorEq]
  | ok b =>
      show (.ok b : Except ε' α) = .ok a ↔ (.ok b : Except ε α) = .ok a
      simp only [Except.ok.injEq]

theorem map_eq_error {x : Except ε α} {f : α → β} {e : ε} :
    x.map f = .error e ↔ x = .error e := by
  cases x with
  | error e => simp [Except.map]
  | ok a => simp [Except.map]

/-- Every failure of the computation satisfies `p`. -/
def FailsOnly (p : ε → Prop) (x : Except ε α) : Prop := ∀ e, x = .error e → p e

namespace FailsOnly

variable {p : ε → Prop}

theorem ok (a : α) : FailsOnly p (.ok a) := fun _ h => nomatch h

theorem error {e : ε} (h : p e) : FailsOnly p (.error e : Except ε α) := by
  rintro _ ⟨⟩
  exact h

theorem bind {x : Except ε α} {f : α → Except ε β} (hx : FailsOnly p x)
    (hf : ∀ a, FailsOnly p (f a)) : FailsOnly p (x >>= f) := by
  cases x with
  | error e => exact error (hx e rfl)
  | ok a => exact hf a

theorem ite {c : Prop} [Decidable c] {x y : Except ε α} (hx : FailsOnly p x) (hy : FailsOnly p y) :
    FailsOnly p (if c then x else y) := by
  split
  · exact hx
  · exact hy

theorem mapError {f : ε' → ε} {x : Except ε' α} (h : ∀ e, p (f e)) :
    FailsOnly p (x.mapError f) := by
  cases x with
  | error e => exact error (h e)
  | ok a => exact ok a

theorem map {x : Except ε α} (f : α → β) (hx : FailsOnly p x) : FailsOnly p (x.map f) := by
  cases x with
  | error e => exact error (hx e rfl)
  | ok a => exact ok (f a)

theorem mono {q : ε → Prop} {x : Except ε α} (h : ∀ e, p e → q e) (hx : FailsOnly p x) :
    FailsOnly q x := fun e he => h e (hx e he)

end FailsOnly

/-! ## Two computations -/

/-- Results agree: the same failure, or related values. -/
inductive Agree (R : α → β → Prop) : Except ε α → Except ε β → Prop
  | error (e : ε) : Agree R (.error e) (.error e)
  | ok {a : α} {b : β} (h : R a b) : Agree R (.ok a) (.ok b)

/-- Both succeed, or both fail with the same failure. -/
abbrev SameOutcome (x : Except ε α) (y : Except ε β) : Prop := Agree (fun _ _ => True) x y

namespace Agree

variable {α' β' : Type _} {R : α → β → Prop} {S : α' → β' → Prop} {x : Except ε α}
  {y : Except ε β}

theorem of_eq {R : α → α → Prop} {x y : Except ε α} (hR : ∀ a, R a a) (h : x = y) :
    Agree R x y := by
  subst h
  cases x with
  | error e => exact error e
  | ok a => exact ok (hR a)

theorem bind {f : α → Except ε α'} {g : β → Except ε β'} (h : Agree R x y)
    (hf : ∀ a b, R a b → Agree S (f a) (g b)) : Agree S (x >>= f) (y >>= g) := by
  cases h with
  | error e => exact error e
  | ok h => exact hf _ _ h

theorem map {f : α → α'} {g : β → β'} (h : Agree R x y) (hf : ∀ a b, R a b → S (f a) (g b)) :
    Agree S (x.map f) (y.map g) := by
  cases h with
  | error e => exact error e
  | ok h => exact ok (hf _ _ h)

theorem mapError {f : ε → ε'} (h : Agree R x y) : Agree R (x.mapError f) (y.mapError f) := by
  cases h with
  | error e => exact error (f e)
  | ok h => exact ok h

theorem ite {c d : Prop} [Decidable c] [Decidable d] {x' : Except ε α} {y' : Except ε β}
    (hcd : c ↔ d) (h : c → d → Agree R x y) (h' : Agree R x' y') :
    Agree R (if c then x else x') (if d then y else y') := by
  by_cases hc : c
  · rw [if_pos hc, if_pos (hcd.mp hc)]
    exact h hc (hcd.mp hc)
  · rw [if_neg hc, if_neg fun hd => hc (hcd.mpr hd)]
    exact h'

/-- Where both fail, they fail with the same failure. -/
theorem error_eq {e e' : ε} (h : Agree R (.error e : Except ε α) (.error e' : Except ε β)) :
    e = e' := by
  cases h
  rfl

end Agree

end SecpKey
