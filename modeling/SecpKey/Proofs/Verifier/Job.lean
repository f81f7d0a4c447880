/-
  SecpKey.Proofs.Verifier.Job

  A job does what verifying at once would have done.  Both start with the same checks
  (`checkInputs`), in one order, and go on with what the checks let through: verifying at
  once (`verify_eq`), a job after it was bound to copies (`run_copies`).
-/
import SecpKey.Proofs.Failure
import SecpKey.Proofs.Signature.Verdict
import SecpKey.Verifier.Request

namespace SecpKey.Verifier

variable {P : Type} {backend : Backend P}

/-! ## Checking inputs -/

/-- The point and the bytes to verify with, or what is wrong: point, then digest, then
signature. -/
def checkInputs (point : Option P) (digest signature : Argument) :
    Except Failure (P × Bytes × Bytes) :=
  match point with
  | none => .error (.precondition .noPublic)
  | some Q => do
    let digest ← ensureDigest digest
    let signature ← ensureSignature signature
    .ok (Q, digest, signature)

/-- What is wrong with inputs is one of the library's own failures, unless they were
released. -/
theorem failsOnly_checkInputs (point : Option P) (digest signature : Argument) :
    FailsOnly (Failure.ArisesFrom [digest, signature] [.precondition, .invalidInput])
      (checkInputs point digest signature) := by
  cases point with
  | none => exact .error (.inl ⟨.precondition, by decide, rfl⟩)
  | some Q =>
      refine .bind ((failsOnly_ensureDigest digest).widen (by simp) (by decide)) fun _ => ?_
      exact .bind ((failsOnly_ensureSignature signature).widen (by simp) (by decide)) fun _ => .ok _

/-- Verifying at once checks the inputs and goes on with the backend. -/
theorem verify_eq (k : Key P) (digest signature : Argument) :
    k.verify backend digest signature
      = checkInputs k.point digest signature >>= fun inputs =>
          Signature.verifyDigest backend inputs.1 inputs.2.1 inputs.2.2 := by
  rw [Key.verify]
  cases k.point with
  | none => rfl
  | some Q =>
      simp only [checkInputs, bind, Except.bind]
      cases ensureDigest digest with
      | error e => rfl
      | ok d =>
          dsimp only
          cases ensureSignature signature with
          | error e => rfl
          | ok b => rfl

/-! ## Preparing a request -/

namespace Request

variable {points : Nat → Option P} {buffers : List Bytes} {request : Request P}

/-- Preparing makes the checks of verifying at once. -/
theorem prepare_fst (points : Nat → Option P) (buffers : List Bytes) (request : Request P) :
    (request.prepare points buffers).1
      = (checkInputs (request.key.bind points) (request.digest.look buffers)
          (request.signature.look buffers)).map fun _ => () := by
  rw [prepare]
  cases request.key.bind points with
  | none => rfl
  | some Q =>
      simp only [checkInputs, bind, Except.bind]
      cases ensureDigest (request.digest.look buffers) with
      | error e => rfl
      | ok d =>
          dsimp only
          cases ensureSignature (request.signature.look buffers) with
          | error e => rfl
          | ok b => rfl

theorem prepare_ne_cancelled (points : Nat → Option P) (buffers : List Bytes)
    (request : Request P) :
    (request.prepare points buffers).1 ≠ .error (.fault .cancelled) := by
  rw [prepare_fst, ne_eq, map_eq_error]
  intro hcheck
  exact (failsOnly_checkInputs _ _ _ _ hcheck).ne_fault .cancelled nofun rfl

/-- Inputs that pass are copied, with the point of the moment. -/
theorem prepare_of_ok {Q : P} {digest signature : Bytes}
    (h : checkInputs (request.key.bind points) (request.digest.look buffers)
      (request.signature.look buffers) = .ok (Q, digest, signature)) :
    request.prepare points buffers
      = (.ok (), { request with digest := .value (.bytes digest)
                                signature := .value (.bytes signature)
                                publicKey := some Q }) := by
  rw [prepare]
  cases hpoint : request.key.bind points with
  | none =>
      rw [hpoint] at h
      cases h
  | some R =>
      simp only [hpoint, checkInputs, bind, Except.bind] at h
      cases hdigest : ensureDigest (request.digest.look buffers) with
      | error e =>
          rw [hdigest] at h
          cases h
      | ok d =>
          rw [hdigest] at h
          dsimp only at h ⊢
          cases hsignature : ensureSignature (request.signature.look buffers) with
          | error e =>
              rw [hsignature] at h
              cases h
          | ok b =>
              rw [hsignature] at h
              cases h
              rfl

/-- Preparing keeps whose request it is, and that it is not completed. -/
theorem prepare_keeps (points : Nat → Option P) (buffers : List Bytes) (request : Request P) :
    let prepared := (request.prepare points buffers).2
    prepared.origin = request.origin ∧ prepared.callback = request.callback
      ∧ prepared.completed = request.completed := by
  rw [prepare]
  split
  · exact ⟨rfl, rfl, rfl⟩
  split
  · exact ⟨rfl, rfl, rfl⟩
  dsimp only
  split
  · exact ⟨rfl, rfl, rfl⟩
  · exact ⟨rfl, rfl, rfl⟩

end Request

/-! ## Running a job -/

/-- Whatever goes wrong in a job, it is not told as a cancellation. -/
theorem Job.run_ne_cancelled (buffers : List Bytes) (job : Job P) :
    job.run backend buffers ≠ .error (.fault .cancelled) := by
  rw [Job.run]
  cases hsignature : signatureBytes (job.signature.look buffers) with
  | error e =>
      -- A signature that cannot be read is a fault of its own.
      have hfault : ∃ fault, e = .fault (.jobUnreadable fault) := by
        unfold signatureBytes at hsignature
        split at hsignature
        · cases hsignature
        · cases hsignature
        · cases hsignature
        · next typeName shape _ =>
          cases hshape : shapeBytes typeName shape with
          | error fault =>
              rw [hshape] at hsignature
              cases hsignature
              exact ⟨fault, rfl⟩
          | ok data =>
              rw [hshape] at hsignature
              cases hsignature
      obtain ⟨fault, rfl⟩ := hfault
      intro h
      cases h
  | ok signature =>
      show Signature.verifyUnder backend job.point (digestBytes (job.digest.look buffers))
        signature ≠ .error (.fault .cancelled)
      rcases Signature.verifyUnder_ok_or_noPoint backend job.point
        (digestBytes (job.digest.look buffers)) signature with ⟨result, hok⟩ | ⟨-, herr⟩
      · rw [hok]
        intro h
        cases h
      · rw [herr]
        intro h
        cases h

end SecpKey.Verifier
