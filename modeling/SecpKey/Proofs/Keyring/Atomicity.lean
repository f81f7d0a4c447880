/-
  SecpKey.Proofs.Keyring.Atomicity

  What a failed operation leaves behind, and what it reports.  In every keyring that
  operations lead to the secrets of keys are live, so an operation whose arguments can be read
  fails in one of the classes it is documented with (`Owned.failsOnly_perform`), and then no key
  has changed: what it did to the vault until then was undone (`Owned.moves`).  A released view
  passes every check of its type, and the fault of reading it is what an operation reports
  unless it was refused before.
-/
import SecpKey.Backend.Secp256k1
import SecpKey.Proofs.Key.Failure
import SecpKey.Proofs.Keyring.Ownership
import SecpKey.Workspace

namespace SecpKey

/-- The keys that an operation is carried out on. -/
def KeyOp.keys : KeyOp → List Nat
  | .new | .generate _ | .ofDer _ => []
  | .getPrivate key | .setPrivate key _ | .getPublic key | .setPublic key _ | .publicPoint key
  | .setCompressed key _ | .regenerate key | .toDer key | .sign key _ | .verify key _ _
  | .describe key | .close key | .useOnce key => [key]
  | .equals key other => [key, other]

/-- The classes in which an operation may fail. -/
def KeyOp.documented : KeyOp → List ErrorClass
  | .generate _ => [.randomness]
  | .ofDer _ => [.invalidInput, .decode]
  | .getPrivate _ | .toDer _ | .useOnce _ => [.encoding]
  | .setPrivate _ _ => [.invalidInput]
  | .setPublic _ _ => [.invalidPoint]
  | .regenerate _ => [.precondition]
  | .sign _ _ => [.precondition, .invalidInput, .signing]
  | .verify _ _ _ => [.precondition, .invalidInput]
  | .new | .getPublic _ | .publicPoint _ | .setCompressed _ _ | .equals _ _ | .describe _
  | .close _ => []

/-- The values that an operation is given besides its keys. -/
def KeyOp.arguments : KeyOp → List Argument
  | .ofDer data | .setPrivate _ data | .setPublic _ data | .sign _ data => [data]
  | .setCompressed _ value => [value]
  | .verify _ digest signature => [digest, signature]
  | .new | .generate _ | .getPrivate _ | .getPublic _ | .publicPoint _ | .regenerate _ | .toDer _
  | .equals _ _ | .describe _ | .close _ | .useOnce _ => []

namespace Keyring

variable {P : Type} {backend : Backend P} {ring : Keyring P}

/-! ## Reports -/

/-- What a failure of `op` may be: one that is documented, that of an argument which was
released, or that of a number which was not given out. -/
def Expected (ring : Keyring P) (op : KeyOp) (e : Failure) : Prop :=
  e.ArisesFrom op.arguments op.documented
    ∨ ∃ key ∈ op.keys, ring.keys.length ≤ key ∧ e = .fault (.unknownName (toString key))

section

variable {p : Failure → Prop} {key : Nat}

theorem failsOnly_making {outcome : Outcome (Key P × List Draw)} (h : FailsOnly p outcome.1) :
    FailsOnly p (ring.making outcome).1 := by
  rcases outcome with ⟨e | ⟨k, left⟩, w⟩
  · exact .error (h e rfl)
  · exact .ok _

theorem failsOnly_changing {outcome : Outcome (Key P)} (h : FailsOnly p outcome.1) :
    FailsOnly p (ring.changing key outcome).1 := by
  rcases outcome with ⟨e | k, w⟩
  · exact .error (h e rfl)
  · exact .ok _

theorem failsOnly_withKey {act : Key P → Except Failure KeyAnswer × Keyring P}
    (hmissing : ring.keys.length ≤ key → p (.fault (.unknownName (toString key))))
    (h : ∀ k, ring.keys[key]? = some k → FailsOnly p (act k).1) :
    FailsOnly p (ring.withKey key act).1 := by
  rw [withKey]
  split
  · next hnone => exact .error (hmissing (List.getElem?_eq_none_iff.mp hnone))
  · next k hk => exact h k hk

end

section

variable {α : Type} {op : KeyOp} {x : Except Failure α}

theorem expected_of_arises (hx : FailsOnly (Failure.ArisesFrom op.arguments op.documented) x) :
    FailsOnly (Expected ring op) x := hx.mono fun _ => .inl

theorem expected_of_class {c : ErrorClass} (hc : c ∈ op.documented)
    (hx : FailsOnly (·.errorClass? = some c) x) : FailsOnly (Expected ring op) x :=
  expected_of_arises (hx.arises hc _)

end

/-- Every operation reports what it is documented to report. -/
theorem Owned.failsOnly_perform (ho : Owned ring) (op : KeyOp) :
    FailsOnly (Expected ring op) (ring.perform backend op).1 := by
  have hmissing : ∀ {key}, key ∈ op.keys → ring.keys.length ≤ key →
      Expected ring op (.fault (.unknownName (toString key))) :=
    fun hkey hlen => .inr ⟨_, hkey, hlen, rfl⟩
  -- First what makes a key, then what changes one, and last what only looks.
  cases op with
  | new => exact failsOnly_making (.ok _)
  | generate draws =>
      exact failsOnly_making (expected_of_class (.head _) (Key.outcome_generate draws _).failsOnly)
  | ofDer data =>
      exact failsOnly_making (expected_of_arises ((Key.failsOnly_ofDer data _).map _))
  | setPrivate key data =>
      refine failsOnly_withKey (hmissing (.head _)) fun k _ => failsOnly_changing ?_
      exact expected_of_arises (k.failsOnly_setPrivate data _)
  | setPublic key data =>
      refine failsOnly_withKey (hmissing (.head _)) fun k _ => failsOnly_changing ?_
      exact expected_of_arises (k.failsOnly_setPublic data)
  | setCompressed key value =>
      refine failsOnly_withKey (hmissing (.head _)) fun k _ => failsOnly_changing ?_
      exact expected_of_arises (k.failsOnly_setCompressed value)
  | regenerate key =>
      refine failsOnly_withKey (hmissing (.head _)) fun k hk => failsOnly_changing ?_
      exact expected_of_class (.head _) ((k.outcome_regenerate _).failsOnly (ho.key_live hk))
  | close key => exact failsOnly_withKey (hmissing (.head _)) fun _ _ => .ok _
  | getPrivate key =>
      refine failsOnly_withKey (hmissing (.head _)) fun k hk => ?_
      exact expected_of_class (.head _) ((Key.failsOnly_getPrivate (ho.key_live hk)).map _)
  | useOnce key =>
      refine failsOnly_withKey (hmissing (.head _)) fun k hk => ?_
      exact expected_of_class (.head _) ((Key.failsOnly_getPrivate (ho.key_live hk)).map _)
  | toDer key =>
      refine failsOnly_withKey (hmissing (.head _)) fun k hk => ?_
      exact expected_of_class (.head _) ((Key.failsOnly_toDer (ho.key_live hk)).map _)
  | sign key digest =>
      refine failsOnly_withKey (hmissing (.head _)) fun k hk => ?_
      exact expected_of_arises (((k.outcome_sign digest _).failsOnly (ho.key_live hk)).map _)
  | verify key digest signature =>
      refine failsOnly_withKey (hmissing (.head _)) fun k _ => ?_
      exact expected_of_arises ((k.failsOnly_verify digest signature).map _)
  | equals key other =>
      refine failsOnly_withKey (hmissing (.head _)) fun _ _ => ?_
      exact failsOnly_withKey (hmissing (.tail _ (.head _))) fun _ _ => .ok _
  | getPublic key => exact failsOnly_withKey (hmissing (.head _)) fun _ _ => .ok _
  | publicPoint key => exact failsOnly_withKey (hmissing (.head _)) fun _ _ => .ok _
  | describe key => exact failsOnly_withKey (hmissing (.head _)) fun _ _ => .ok _

/-- Keys that were given out leave the documented failures and the fault of the arguments. -/
theorem Expected.arises {op : KeyOp} {e : Failure} (h : Expected ring op e)
    (hop : ∀ key ∈ op.keys, key < ring.keys.length) :
    e.ArisesFrom op.arguments op.documented := by
  rcases h with harises | ⟨key, hkey, hlen, -⟩
  · exact harises
  · exact absurd hlen (Nat.not_le.mpr (hop key hkey))

end Keyring

end SecpKey
