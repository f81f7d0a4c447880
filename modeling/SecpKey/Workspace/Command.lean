/-
  SecpKey.Workspace.Command

  What can be asked of a workspace, and what it answers.  Keys, verifiers and requests
  are named; a submission may name the one that its callback submits next.
-/
import SecpKey.Slots
import SecpKey.Verifier.State

namespace SecpKey.Workspace

/-! ## Commands -/

/-- Where an argument comes from. -/
inductive Source where
  | value (a : Argument)
  /-- A new buffer of the caller with these contents. -/
  | buffer (data : Bytes)
  /-- A value that was saved under a name. -/
  | saved (name : String)
  deriving DecidableEq, Repr

/-- What a callback does after it has noted its call. -/
structure Reaction where
  /-- The text of the fault that it raises. -/
  raises : Option String
  deriving DecidableEq, Repr

/-- A submission to a verifier. -/
structure Submission where
  ident : Int
  verifier : String
  key : String
  digest : Source
  signature : Source
  /-- Overwrite the buffers with zeros as soon as the submission is made. -/
  clobber : Bool
  /-- Note the number of pending requests at each call. -/
  probe : Bool
  /-- What the callback does; none for a submission without a callback. -/
  reaction : Option Reaction
  deriving DecidableEq, Repr

/-- An operation on a named key. -/
inductive KeyAction where
  | getPrivate
  | setPrivate (data : Source)
  | getPublic
  | setPublic (data : Source)
  | publicPoint
  | setCompressed (value : Argument)
  | regenerate
  | toDer
  | sign (digest : Source)
  | verify (digest signature : Source)
  | equals (other : String)
  /-- Compare with something that is no key. -/
  | equalsForeign
  | describe
  /-- The curve, and whether the public point satisfies its equation. -/
  | curve
  | close
  | useOnce
  deriving DecidableEq, Repr

/-- Something asked of a workspace. -/
inductive Command where
  | new (key : String)
  | generate (key : String) (draws : List Draw)
  | ofDer (key : String) (data : Source)
  | onKey (key : String) (action : KeyAction)
  /-- Verify on a worker, on the named verifier or on a new one. -/
  | verifyAsync (key : String) (verifier : Option String) (digest signature : Source)
      (callback : Bool)
  /-- A new verifier, with a number of workers or a borrowed pool that accepts jobs or not. -/
  | openVerifier (verifier : String) (workers : Option Int) (borrowed : Option Bool)
  /-- Submit `first`; each of `next` is submitted by the callback of the one before. -/
  | submit (first : Submission) (next : List Submission)
  | cancel (verifier : String) (ident : Int)
  | drain (verifier : String)
  | leave (verifier : String)
  | verify (verifier key : String) (digest signature : Source)
  /-- Close a verifier; `wait` for the answers of a pool of its own. -/
  | closeVerifier (verifier : String) (wait : Bool)
  | describeVerifier (verifier : String)
  /-- Whether a borrowed pool accepts jobs; a negative place counts from the newest. -/
  | usePool (place : Int)
  | addUnscheduled (request verifier key : String) (digest signature : Source)
  | makeRequest (request : String) (key : Option String) (digest signature : Source)
  | prepareRequest (request : String)
  | runJob (request : String)
  | releaseRequest (request : String)
  | showRequest (request : String)
  deriving DecidableEq, Repr

/-! ## Replies -/

/-- A future as it is shown. -/
inductive FutureView where
  | pending
  | cancelled
  | answered (outcome : Except Failure VerifyResult)

/-- How a future is shown; a request without one shows as pending. -/
def FutureView.ofFuture {P : Type} : Option (Verifier.Future P) → FutureView
  | some (.done outcome) => .answered outcome
  | some .cancelled => .cancelled
  | _ => .pending

/-- A submission that a drain reports. -/
structure Completion where
  ident : Int
  probe : Bool
  calls : List Verifier.Call
  future : FutureView

/-- What a command answers. -/
inductive Reply where
  | done
  | key (answer : KeyAnswer)
  /-- The number of draws that were left. -/
  | left (count : Nat)
  | curve (name : String) (contains : Bool)
  | truth (b : Bool)
  /-- Whether two things are equal. -/
  | same (b : Bool)
  | result (r : VerifyResult)
  | text (s : String)
  /-- The private half that was read inside a block. -/
  | used (secret : Option Bytes)
  | called (calls : List Verifier.Call) (future : FutureView)
  /-- What a drain completed, in the order of the identifiers, and what callbacks raised. -/
  | drained (completed : List Completion) (raised : List Failure)

end SecpKey.Workspace
