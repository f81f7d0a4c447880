/-
  SecpKey.Proofs.Keyring.Material

  Operations on the keys of a keyring, seen as operations on their material.  `KeyUse` is
  an operation on one key and `Material.use` what it does to the material; `uses_perform` says
  that a key answers as its material does and that the material of all other keys stays.
  Containers do not occur in what follows from it.
-/
import SecpKey.Proofs.Key.Material
import SecpKey.Proofs.Keyring.Ownership

namespace SecpKey

variable {P : Type}

/-! ## Operations on one key -/

/-- An operation on one key. -/
inductive KeyUse where
  | getPrivate
  | setPrivate (data : Argument)
  | getPublic
  | setPublic (data : Argument)
  | publicPoint
  | setCompressed (value : Argument)
  | regenerate
  | toDer
  | sign (digest : Argument)
  | verify (digest signature : Argument)
  | describe
  | close
  | useOnce
  deriving DecidableEq, Repr

/-- The operation on key `i`. -/
def KeyUse.on (i : Nat) : KeyUse → KeyOp
  | .getPrivate => .getPrivate i
  | .setPrivate data => .setPrivate i data
  | .getPublic => .getPublic i
  | .setPublic data => .setPublic i data
  | .publicPoint => .publicPoint i
  | .setCompressed value => .setCompressed i value
  | .regenerate => .regenerate i
  | .toDer => .toDer i
  | .sign digest => .sign i digest
  | .verify digest signature => .verify i digest signature
  | .describe => .describe i
  | .close => .close i
  | .useOnce => .useOnce i

namespace Material

/-- What an operation that changes a key answers, and the material after it. -/
def changing (m : Material P) :
    Except Failure (Material P) → Except Failure KeyAnswer × Material P
  | .error e => (.error e, m)
  | .ok changed => (.ok .done, changed)

/-- What an operation answers, and the material after it. -/
def use (backend : Backend P) (m : Material P) :
    KeyUse → Except Failure KeyAnswer × Material P
  | .getPrivate => (m.getPrivate.map .bytes?, m)
  | .setPrivate data => m.changing (m.setPrivate data)
  | .getPublic => (.ok (.bytes? (m.getPublic backend)), m)
  | .setPublic data => m.changing (m.setPublic backend data)
  | .publicPoint => (.ok (.point? (m.publicPoint backend)), m)
  | .setCompressed value => m.changing (m.setCompressed value)
  | .regenerate => m.changing (m.regenerate backend)
  | .toDer => ((m.toDer backend).map .bytes?, m)
  | .sign digest => ((m.sign backend digest).map .bytes, m)
  | .verify digest signature => ((m.verify backend digest signature).map .result, m)
  | .describe => (.ok (.text (m.describe backend)), m)
  | .close => m.changing (.ok m.close)
  | .useOnce => (m.getPrivate.map .bytes?, m.close)

end Material

/-! ## Containers of other keys -/

/-- A container that was there and is not the one handed over keeps what it holds. -/
theorem Handover.get_of_ne {v w : Vault} {old new : Option Nat} {h : Nat}
    (hv : Handover v w old new) (hlt : h < v.cells.length) (hne : old ≠ some h) :
    w.get h = v.get h := by
  cases hv with
  | kept hk => exact hk.get_eq h
  | dropped _ hget => rw [hget, if_neg hne]
  | replaced hfresh _ hget => rw [hget h (by omega), if_neg hne]

theorem Key.material_congr {v w : Vault} {k : Key P}
    (h : ∀ c, k.secret = some c → w.get c = v.get c) : k.material w = k.material v := by
  rw [material, material]
  cases hs : k.secret with
  | none => rfl
  | some c => rw [Option.bind_some, Option.bind_some, h c hs]

namespace Keyring

variable {backend : Backend P} {ring : Keyring P} {i : Nat} {k : Key P} {m : Material P}

/-- The material of key `j`. -/
def material? (ring : Keyring P) (j : Nat) : Option (Material P) :=
  (ring.keys[j]?).map (Key.material ring.vault)

theorem exists_key_of_material? (hm : ring.material? i = some m) :
    ∃ k, ring.keys[i]? = some k ∧ k.material ring.vault = m :=
  Option.map_eq_some_iff.mp hm

/-! ## One operation -/

/-- The result of an operation on key `i` answers what the pair says, and leaves the key with
the material that the pair says and all others with what they had. -/
structure Uses (ring : Keyring P) (i : Nat) (result : Except Failure KeyAnswer × Keyring P)
    (expected : Except Failure KeyAnswer × Material P) : Prop where
  answer : result.1 = expected.1
  material : ∀ j, result.2.material? j = if j = i then some expected.2 else ring.material? j

theorem uses_of_kept {answer answer' : Except Failure KeyAnswer} {v : Vault}
    (hm : ring.material? i = some m) (hv : ring.vault.Kept v) (h : answer = answer') :
    Uses ring i (answer, { ring with vault := v }) (answer', m) where
  answer := h
  material j := by
    have hsame : ({ ring with vault := v } : Keyring P).material? j = ring.material? j := by
      show (ring.keys[j]?).map (Key.material v) = (ring.keys[j]?).map (Key.material ring.vault)
      have hcongr : Key.material (P := P) v = Key.material ring.vault := by
        funext l
        exact Key.material_congr fun c _ => hv.get_eq c
      rw [hcongr]
    rw [hsame]
    split
    · next hj => rw [hj, hm]
    · rfl

theorem uses_looking {answer answer' : Except Failure KeyAnswer}
    (hm : ring.material? i = some m) (h : answer = answer') :
    Uses ring i (ring.looking answer) (answer', m) :=
  uses_of_kept hm (Vault.Kept.refl _) h

theorem Owned.uses_changing (ho : Owned ring) (hk : ring.keys[i]? = some k)
    {outcome : Outcome (Key P)} {expected : Except Failure (Material P)}
    (ha : Accounts ring.vault k.secret Key.secret outcome)
    (h : Key.outcomeMaterial outcome = expected) :
    Uses ring i (ring.changing i outcome) ((k.material ring.vault).changing expected) := by
  have hm : ring.material? i = some (k.material ring.vault) := by rw [material?, hk]; rfl
  subst h
  rcases outcome with ⟨e | l, w⟩
  · exact uses_of_kept hm ha rfl
  · have hlt := (List.getElem?_eq_some_iff.mp hk).1
    refine ⟨rfl, fun j => ?_⟩
    show ((ring.keys.set i l)[j]?).map (Key.material w) = _
    split
    · next hj =>
      rw [hj, List.getElem?_set_self hlt]
      rfl
    · next hj =>
      rw [List.getElem?_set_ne (Ne.symm hj), material?]
      cases hother : ring.keys[j]? with
      | none => rfl
      | some other =>
          -- Another key has another container, and it has been given out before.
          have hsame : other.material w = other.material ring.vault := by
            apply Key.material_congr
            intro c hc
            apply Handover.get_of_ne ha (ho.secret_lt hother c hc)
            intro hs
            exact ho.ne_of_ne hj ((secretAt_eq hother).trans hc) ((secretAt_eq hk).trans hs)
          rw [Option.map_some, Option.map_some, hsame]

/-- Every operation on a key is the operation on its material. -/
theorem uses_perform (backend : Backend P) (ho : Owned ring) (hm : ring.material? i = some m)
    (use : KeyUse) :
    Uses ring i (ring.perform backend (use.on i)) (m.use backend use) := by
  obtain ⟨k, hk, rfl⟩ := exists_key_of_material? hm
  have hlive := ho.key_live hk
  have hwith : ∀ act : Key P → Except Failure KeyAnswer × Keyring P,
      ring.withKey i act = act k := by
    intro act
    rw [withKey, hk]
  have hclose : Uses ring i (ring.changing i (.ok (k.close ring.vault).1, (k.close ring.vault).2))
      ((k.material ring.vault).changing (.ok (k.material ring.vault).close)) := by
    have ha : Accounts ring.vault k.secret Key.secret
        (.ok (k.close ring.vault).1, (k.close ring.vault).2) := k.handover_close ring.vault
    exact ho.uses_changing hk ha rfl
  cases use with
  | getPrivate =>
      rw [KeyUse.on, perform, hwith]
      exact uses_looking hm (by rw [Key.getPrivate_eq hlive])
  | getPublic =>
      rw [KeyUse.on, perform, hwith]
      exact uses_looking hm rfl
  | publicPoint =>
      rw [KeyUse.on, perform, hwith]
      exact uses_looking hm rfl
  | toDer =>
      rw [KeyUse.on, perform, hwith]
      exact uses_looking hm (by rw [Key.toDer_eq hlive])
  | verify digest signature =>
      rw [KeyUse.on, perform, hwith]
      exact uses_looking hm rfl
  | describe =>
      rw [KeyUse.on, perform, hwith]
      exact uses_looking hm (by rw [Key.describe_eq hlive])
  | sign digest =>
      rw [KeyUse.on, perform, hwith]
      exact uses_of_kept hm (k.outcome_sign digest _).kept
        (congrArg (Except.map KeyAnswer.bytes) (Key.sign_eq hlive digest))
  | setPrivate data =>
      rw [KeyUse.on, perform, hwith]
      exact ho.uses_changing hk (k.accounts_setPrivate data (ho.secret_lt hk))
        (Key.setPrivate_eq hlive data)
  | setPublic data =>
      rw [KeyUse.on, perform, hwith]
      exact ho.uses_changing hk (k.accounts_setPublic data _) (Key.setPublic_eq data _)
  | setCompressed value =>
      rw [KeyUse.on, perform, hwith]
      exact ho.uses_changing hk (k.accounts_setCompressed value _) (Key.setCompressed_eq value _)
  | regenerate =>
      rw [KeyUse.on, perform, hwith]
      exact ho.uses_changing hk (k.outcome_regenerate _).accounts (Key.regenerate_eq hlive)
  | close =>
      rw [KeyUse.on, perform, hwith]
      exact hclose
  | useOnce =>
      rw [KeyUse.on, perform, hwith]
      exact ⟨congrArg (Except.map KeyAnswer.bytes?) (Key.getPrivate_eq hlive), hclose.material⟩

end Keyring

end SecpKey
