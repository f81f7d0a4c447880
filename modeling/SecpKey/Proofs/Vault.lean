/-
  SecpKey.Proofs.Vault

  What is read from a vault after it was written to.  `Kept` says that nothing of what is live
  has changed: containers made on the way are wiped again.  `Handover` says that one container
  gave way to another, or to none, and that the rest was kept; new containers have numbers
  that were never given out.
-/
import SecpKey.Vault
import Mathlib.Order.Nat

namespace SecpKey

namespace Vault

/-! ## Reading after writing -/

theorem get_of_length_le {v : Vault} {h : Nat} (hh : v.cells.length ≤ h) : v.get h = .wiped := by
  rw [get, List.getD_eq_getElem?_getD, List.getElem?_eq_none hh]
  rfl

theorem lt_length_of_live {v : Vault} {h : Nat} (hh : (v.get h).isWiped = false) :
    h < v.cells.length := by
  by_contra hge
  rw [get_of_length_le (Nat.le_of_not_lt hge)] at hh
  cases hh

/-- A container that is not wiped holds bytes. -/
theorem exists_get {v : Vault} {h : Nat} (hh : (v.get h).isWiped = false) :
    ∃ buffer, v.get h = .live buffer := by
  cases hcell : v.get h with
  | live buffer => exact ⟨buffer, rfl⟩
  | wiped =>
      rw [hcell] at hh
      cases hh

theorem put_eq (v : Vault) (s : SecretScalar) : v.put s = (v.cells.length, (v.put s).2) := rfl

theorem get_put_length (v : Vault) (s : SecretScalar) :
    (v.put s).2.get v.cells.length = s := get_put_self v s

theorem get_put (v : Vault) (s : SecretScalar) (h : Nat) :
    (v.put s).2.get h = if h = v.cells.length then s else v.get h := by
  split
  · next heq =>
    subst heq
    exact get_put_self v s
  · next hne =>
    rcases Nat.lt_or_gt_of_ne hne with hlt | hgt
    · exact get_put_of_lt v s hlt
    -- Beyond the new container both vaults have nothing.
    · rw [get_of_length_le (v := v) hgt.le, get_of_length_le]
      rw [put, List.length_append, List.length_singleton]
      omega

theorem get_wipe (v : Vault) (k h : Nat) :
    (v.wipe k).get h = if h = k then .wiped else v.get h := by
  split
  · next heq => rw [heq, get_wipe_self]
  · next hne => exact get_wipe_of_ne v (Ne.symm hne)

theorem get_wipe? (v : Vault) (o : Option Nat) (h : Nat) :
    (v.wipe? o).get h = if o = some h then .wiped else v.get h := by
  cases o with
  | none => rfl
  | some k => simp only [wipe?, get_wipe, Option.some.injEq, eq_comm]

@[simp] theorem length_put (v : Vault) (s : SecretScalar) :
    (v.put s).2.cells.length = v.cells.length + 1 := by
  rw [put, List.length_append, List.length_singleton]

@[simp] theorem length_wipe (v : Vault) (k : Nat) : (v.wipe k).cells.length = v.cells.length :=
  List.length_set

@[simp] theorem length_wipe? (v : Vault) (o : Option Nat) :
    (v.wipe? o).cells.length = v.cells.length := by
  cases o with
  | none => rfl
  | some k => exact length_wipe v k

/-! ## Vaults that hold the same -/

/-- The later vault has what the earlier one has, and beyond that only wiped containers. -/
structure Kept (v w : Vault) : Prop where
  length_le : v.cells.length ≤ w.cells.length
  get_eq : ∀ h, w.get h = v.get h

theorem Kept.refl (v : Vault) : Kept v v := ⟨Nat.le_refl _, fun _ => rfl⟩

theorem Kept.trans {u v w : Vault} (h : Kept u v) (g : Kept v w) : Kept u w :=
  ⟨h.length_le.trans g.length_le, fun k => (g.get_eq k).trans (h.get_eq k)⟩

/-- A container that is made and wiped leaves no trace. -/
theorem kept_put_wipe (v : Vault) (s : SecretScalar) :
    Kept v ((v.put s).2.wipe v.cells.length) where
  length_le := by
    rw [length_wipe, length_put]
    omega
  get_eq h := by
    rw [get_wipe, get_put]
    split
    · next heq => rw [heq, get_of_length_le (Nat.le_refl _)]
    · rfl

end Vault

/-! ## Handing over -/

/-- From `v` to `w`, the container `old` gave way to another one. -/
inductive Handover (v w : Vault) : Option Nat → Option Nat → Prop
  | kept {old : Option Nat} (h : v.Kept w) : Handover v w old old
  | dropped {old : Option Nat} (hlen : v.cells.length ≤ w.cells.length)
      (hget : ∀ h, w.get h = if old = some h then .wiped else v.get h) : Handover v w old none
  | replaced {old : Option Nat} {new : Nat} (hfresh : v.cells.length ≤ new)
      (hlive : (w.get new).isWiped = false)
      (hget : ∀ h, h ≠ new → w.get h = if old = some h then .wiped else v.get h) :
      Handover v w old (some new)

/-- What a new container replaces has been wiped, and the new one is live. -/
theorem Handover.put_wipe? {v : Vault} {o : Option Nat} {s : SecretScalar}
    (hs : s.isWiped = false) (hold : ∀ h, o = some h → h < v.cells.length) :
    Handover v ((v.put s).2.wipe? o) o (some v.cells.length) := by
  have hne : o ≠ some v.cells.length := fun h0 => Nat.lt_irrefl _ (hold _ h0)
  refine .replaced (Nat.le_refl _) ?_ ?_
  · rw [Vault.get_wipe?, if_neg hne, Vault.get_put_length]
    exact hs
  · intro h hh
    rw [Vault.get_wipe?, Vault.get_put, if_neg hh]

theorem Handover.put {v : Vault} {s : SecretScalar} (hs : s.isWiped = false) :
    Handover v (v.put s).2 none (some v.cells.length) :=
  Handover.put_wipe? (o := none) hs fun _ h => nomatch h

namespace Handover

variable {u v w : Vault} {old new : Option Nat} {h : Nat}

/-- Containers that were made and wiped before do not matter. -/
theorem of_kept (hk : u.Kept v) (hv : Handover v w old new) : Handover u w old new := by
  cases hv with
  | kept h => exact .kept (hk.trans h)
  | dropped hlen hget =>
      refine .dropped (hk.length_le.trans hlen) fun k => ?_
      rw [hget, hk.get_eq]
  | replaced hfresh hlive hget =>
      refine .replaced (hk.length_le.trans hfresh) hlive fun k hk' => ?_
      rw [hget k hk', hk.get_eq]

/-- A container that was there before is as it was, or wiped. -/
theorem get_of_lt (hv : Handover v w old new) (hlt : h < v.cells.length) :
    w.get h = v.get h ∨ w.get h = .wiped := by
  cases hv with
  | kept hk => exact .inl (hk.get_eq h)
  | dropped _ hget =>
      rw [hget]
      split
      · exact .inr rfl
      · exact .inl rfl
  | replaced hfresh _ hget =>
      rw [hget h (by omega)]
      split
      · exact .inr rfl
      · exact .inl rfl

/-- One that was not is wiped, unless it is the one handed over to. -/
theorem get_of_length_le (hv : Handover v w old new) (hge : v.cells.length ≤ h) :
    w.get h = .wiped ∨ new = some h := by
  have hwiped := Vault.get_of_length_le hge
  cases hv with
  | kept hk => exact .inl ((hk.get_eq h).trans hwiped)
  | dropped _ hget => exact .inl (by rw [hget, hwiped, ite_self])
  | @replaced new _ _ hget =>
      by_cases hh : h = new
      · exact .inr (hh ▸ rfl)
      · exact .inl (by rw [hget h hh, hwiped, ite_self])

end Handover

end SecpKey
