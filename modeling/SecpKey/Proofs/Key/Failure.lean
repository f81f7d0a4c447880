/-
  SecpKey.Proofs.Key.Failure

  How the operations of a key fail.  A key whose secret is not wiped can be read, copied and
  written, so what is left are the classes that each operation names for itself.  The handlers
  around the calls to the backend do not cover every class that these calls could raise; the
  others are excluded by the checks that come first.  The fault of a released argument is
  excluded by none of them, and passes through every operation that takes an argument.
-/
import SecpKey.Proofs.Failure
import SecpKey.Proofs.Key.Containers
import SecpKey.Proofs.Signature.Verdict

namespace SecpKey.Key

variable {P : Type} {backend : Backend P} {k : Key P} {v : Vault}

/-! ## Making keys -/

theorem GenerateOutcome.failsOnly {draws : List Draw} {o : Outcome (Key P × List Draw)}
    (h : GenerateOutcome backend draws v o) :
    FailsOnly (·.errorClass? = some .randomness) o.1 := by
  cases h with
  | failed _ _ => exact .error rfl
  | made _ _ _ _ => exact .ok _

/-- Whatever is wrong with bytes, they are refused as undecodable. -/
theorem ImportOutcome.refuses {data : Bytes} {o : Outcome (Key P)}
    (h : ImportOutcome backend v (.bytes data) o) : EcPrivateKey.Refuses o.1 := by
  cases h with
  | unread h => cases h
  | undecoded h => exact .error (EcPrivateKey.refuses_decode backend _ data _ h)
  | refused _ hclass => exact .error hclass
  | made _ => exact .ok _

theorem failsOnly_ofDer (data : Argument) (v : Vault) :
    FailsOnly (Failure.ArisesFrom [data] [.invalidInput, .decode]) (ofDer backend data v).1 := by
  cases data with
  | bytes data => exact (outcome_ofDer (.bytes data) v).refuses.arises (by decide) _
  | released => exact .error (.inr ⟨.head _, rfl⟩)
  | absent => exact .error (.inl ⟨.invalidInput, by decide, rfl⟩)
  | other typeName shape => exact .error (.inl ⟨.invalidInput, by decide, rfl⟩)

/-! ## Changing keys -/

theorem failsOnly_setPrivate (k : Key P) (data : Argument) (v : Vault) :
    FailsOnly (Failure.ArisesFrom [data] [.invalidInput]) (k.setPrivate data v).1 := by
  unfold setPrivate
  split
  · next e he => exact .error (data.failsOnly_ensureBytes "private" e he)
  · exact .ok _

theorem failsOnly_setPublic (k : Key P) (data : Argument) :
    FailsOnly (Failure.ArisesFrom [data] [.invalidPoint]) (k.setPublic backend data) := by
  unfold setPublic
  split
  · next e he => exact .error (failsOnly_ensureFramed data e he)
  split
  · exact .error (.inl ⟨_, .head _, rfl⟩)
  · exact .ok _

theorem failsOnly_setCompressed (k : Key P) (value : Argument) :
    FailsOnly (Failure.ArisesFrom [value] []) (k.setCompressed value) := by
  cases value with
  | bytes data => exact .ok _
  | released => exact .error (.inr ⟨.head _, rfl⟩)
  | absent => exact .ok _
  | other typeName shape => exact .ok _

theorem RegenerateOutcome.failsOnly {o : Outcome (Key P)} (h : RegenerateOutcome backend k v o)
    (hk : k.Live v) : FailsOnly (·.errorClass? = some .precondition) o.1 := by
  cases h with
  | missing _ => exact .error rfl
  | wiped hs hv => exact absurd hv (hk.ne_wiped hs)
  | refused _ _ => exact .error rfl
  | made _ _ _ _ => exact .ok _

/-! ## Export -/

theorem failsOnly_getPrivate (hk : k.Live v) :
    FailsOnly (·.errorClass? = some .encoding) (k.getPrivate v) := by
  unfold getPrivate
  split
  · exact .ok none
  next h hs =>
  obtain ⟨buffer, hcell⟩ := hk.exists_get hs
  rw [hcell]
  exact (SecretScalar.failsOnly_toBytes buffer).map some

theorem failsOnly_toDer (hk : k.Live v) :
    FailsOnly (·.errorClass? = some .encoding) (k.toDer backend v) := by
  unfold toDer
  split
  · next h point hs _ =>
    obtain ⟨buffer, hcell⟩ := hk.exists_get hs
    rw [hcell]
    exact .bind (SecretScalar.failsOnly_toBytes buffer) fun secret =>
      .bind (EcPrivateKey.failsOnly_encode _ _ _) fun der => .ok _
  · exact .ok none

/-! ## Signatures -/

theorem SignOutcome.failsOnly {digest : Argument} {o : Outcome Bytes}
    (h : SignOutcome backend k digest v o) (hk : k.Live v) :
    FailsOnly (Failure.ArisesFrom [digest] [.precondition, .invalidInput, .signing]) o.1 := by
  cases h with
  | missing _ => exact .error (.inl ⟨.precondition, by decide, rfl⟩)
  | badDigest h =>
      refine FailsOnly.error ?_
      exact (failsOnly_ensureDigest digest).widen (List.Subset.refl _) (by decide) _ h
  | wiped hs hv => exact absurd hv (hk.ne_wiped hs)
  | signed _ _ _ hclass => exact hclass.arises (by decide) _

theorem failsOnly_verify (k : Key P) (digest signature : Argument) :
    FailsOnly (Failure.ArisesFrom [digest, signature] [.precondition, .invalidInput])
      (k.verify backend digest signature) := by
  unfold verify
  split
  · exact .error (.inl ⟨.precondition, by decide, rfl⟩)
  next point _ =>
  refine .bind ((failsOnly_ensureDigest digest).widen (by simp) (by decide)) fun d => ?_
  refine .bind ((failsOnly_ensureSignature signature).widen (by simp) (by decide)) fun s => ?_
  -- With a point, the signature has a verdict, whatever it looks like.
  obtain ⟨result, hok⟩ := Signature.exists_verifyDigest backend point d s
  rw [hok]
  exact .ok result

/-! ## Released arguments -/

end SecpKey.Key
