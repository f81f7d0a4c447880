/-
  SecpKey.Verifier.Request

  One verification on its way: the key and the inputs it was made with, and, once it is
  prepared, copies of the inputs and the public point of that moment.  A job is bound to
  what the request holds when the job is built.
-/
import SecpKey.Key

namespace SecpKey.Verifier

/-! ## Inputs -/

/-- What a request holds as an input: a value of its own, or the caller's buffer, whose
contents may still change. -/
inductive Held where
  | value (a : Argument)
  | buffer (id : Nat)
  deriving DecidableEq, Repr

/-- The input as it is now. -/
def Held.look (buffers : List Bytes) : Held → Argument
  | .value a => a
  | .buffer id => .bytes (buffers.getD id [])

/-! ## Jobs and futures -/

/-- The work of one verification. -/
structure Job (P : Type) where
  point : Option P
  digest : Held
  signature : Held
  deriving DecidableEq, Repr

/-- A value without bytes as the bytes a job looks at.  Whatever can be read counts as
empty: it is no signature, and neither is the empty string. -/
def shapeBytes (typeName : String) : Shape → Except ReadFault Bytes
  | .empty => .ok []
  | .readable => .ok []
  | .single => .error (.noElements typeName)
  | .keyed => .error .keyed
  | .foreign elementType => .error (.element elementType)
  | .word length => .error (.word length)

/-- A signature as the bytes a job looks at.  What refuses to be read is no signature either. -/
def signatureBytes : Argument → Except Failure Bytes
  | .bytes data => .ok data
  | .released => .ok []
  | .absent => .ok []
  | .other typeName shape =>
    (shapeBytes typeName shape).mapError (fun fault => .fault (.jobUnreadable fault))

/-- A digest as the bytes a job passes on. -/
def digestBytes : Argument → Bytes
  | .bytes data => data
  | _ => []

/-- Carry out the work. -/
def Job.run {P : Type} (backend : Backend P) (buffers : List Bytes) (job : Job P) :
    Except Failure VerifyResult := do
  let signature ← signatureBytes (job.signature.look buffers)
  Signature.verifyUnder backend job.point (digestBytes (job.digest.look buffers)) signature

/-- Whether the work is over without a look at the point. -/
def Job.isShort {P : Type} (buffers : List Bytes) (job : Job P) : Bool :=
  match signatureBytes (job.signature.look buffers) with
  | .error _ => true
  | .ok signature => !Signature.needsPoint signature

/-- The state of a future. -/
inductive Future (P : Type) where
  /-- Accepted by a pool and not yet answered. -/
  | scheduled (job : Job P)
  | done (outcome : Except Failure VerifyResult)
  | cancelled

/-- Whether a future will not change any more. -/
def Future.isDone {P : Type} : Future P → Bool
  | .scheduled _ => false
  | _ => true

/-! ## Requests -/

/-- Who waits for a request. -/
inductive Origin where
  /-- Nobody: the client made it and works with it by hand. -/
  | client
  /-- A verifier that reports to a callback. -/
  | submitted (verifier : Nat)
  /-- A verifier on behalf of a coroutine. -/
  | awaited (verifier : Nat)
  /-- Nobody, though it is pending with the verifier: its submission failed after that. -/
  | stranded (verifier : Nat)
  deriving DecidableEq, Repr

/-- The verifier that takes the request out of its pending set when it is completed. -/
def Origin.host? : Origin → Option Nat
  | .submitted v | .awaited v => some v
  | .client | .stranded _ => none

/-- One verification on its way.  Keys are named by number. -/
structure Request (P : Type) where
  origin : Origin
  key : Option Nat
  digest : Held
  signature : Held
  /-- Whether a callback waits for the outcome. -/
  callback : Bool
  publicKey : Option P
  future : Option (Future P)
  completed : Bool

namespace Request

variable {P : Type}

/-- A request as it is made. -/
def fresh (origin : Origin) (key : Option Nat) (digest signature : Held) (callback : Bool) :
    Request P :=
  { origin := origin, key := key, digest := digest, signature := signature, callback := callback,
    publicKey := none, future := none, completed := false }

/-- Check the inputs and copy what a job needs.  The digest is copied as soon as it has
been checked, also when the signature is refused after it. -/
def prepare (points : Nat → Option P) (buffers : List Bytes) (r : Request P) :
    Except Failure Unit × Request P :=
  match r.key.bind points with
  | none => (.error (.precondition .noPublic), r)
  | some point =>
    match ensureDigest (r.digest.look buffers) with
    | .error e => (.error e, r)
    | .ok digest =>
      -- A caller who overwrites the buffer from now on changes nothing.
      let r := { r with digest := .value (.bytes digest) }
      match ensureSignature (r.signature.look buffers) with
      | .error e => (.error e, r)
      | .ok signature =>
        (.ok (), { r with signature := .value (.bytes signature), publicKey := some point })

/-- The job for what the request holds. -/
def job (r : Request P) : Job P := ⟨r.publicKey, r.digest, r.signature⟩

/-- The request of a submission that failed when it was pending. -/
def strand (r : Request P) (v : Nat) : Request P := { r with origin := .stranded v }

/-- The request without its key, inputs and callback. -/
def release (r : Request P) : Request P :=
  { r with key := none, digest := .value .absent, signature := .value .absent, callback := false,
           publicKey := none }

end Request

end SecpKey.Verifier
