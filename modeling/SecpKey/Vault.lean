/-
  SecpKey.Vault

  Every container that was ever made, by number.  Containers are never removed, only
  wiped, so a number stays the identity of its container and the vault shows which of
  them still hold a scalar.
-/
import SecpKey.SecretScalar

namespace SecpKey

/-- All containers, in the order they were made. -/
structure Vault where
  cells : List SecretScalar
  deriving DecidableEq, Repr

namespace Vault

def empty : Vault := ⟨[]⟩

/-- The container with number `h`; a number not yet given out counts as wiped. -/
def get (v : Vault) (h : Nat) : SecretScalar := v.cells.getD h .wiped

/-- A new container, with its number. -/
def put (v : Vault) (s : SecretScalar) : Nat × Vault := (v.cells.length, ⟨v.cells ++ [s]⟩)

/-- The vault after container `h` is wiped. -/
def wipe (v : Vault) (h : Nat) : Vault := ⟨v.cells.set h .wiped⟩

/-- The vault after the container of an optional number is wiped. -/
def wipe? (v : Vault) : Option Nat → Vault
  | none => v
  | some h => v.wipe h

/-- The numbers of the containers that are not wiped. -/
def live (v : Vault) : List Nat :=
  (List.range v.cells.length).filter (fun h => !(v.get h).isWiped)

/-! ## Reading after writing -/

theorem get_put_self (v : Vault) (s : SecretScalar) : (v.put s).2.get (v.put s).1 = s := by
  simp [put, get]

theorem get_put_of_lt (v : Vault) (s : SecretScalar) {h : Nat} (hh : h < v.cells.length) :
    (v.put s).2.get h = v.get h := by
  simp [put, get, List.getElem?_append_left hh]

@[simp] theorem get_wipe_self (v : Vault) (h : Nat) : (v.wipe h).get h = .wiped := by
  simp only [wipe, get, List.getD_eq_getElem?_getD, List.getElem?_set, if_true]
  split <;> rfl

theorem get_wipe_of_ne (v : Vault) {h k : Nat} (hk : h ≠ k) : (v.wipe h).get k = v.get k := by
  simp [wipe, get, List.getElem?_set_ne hk]

end Vault

end SecpKey
