/-
  SecpKey.Verifier.Event

  Runs of the verifiers: any sequence of steps by clients, workers and the event loop, in
  any order.  What a callback does is a sequence of client steps between the `report` and
  the `finish` of its request.
-/
import SecpKey.Verifier.State

namespace SecpKey.Verifier

/-- One step of a run. -/
inductive Event where
  | keyOp (op : KeyOp)
  | addBuffer (data : Bytes)
  | overwrite (buffer : Nat) (data : Bytes)
  | addPool (accepting : Bool)
  | shutDefault
  | openVerifier (workers : Option Int) (pool : Option Nat)
  | submit (verifier : Nat) (key : Option Nat) (digest signature : Held) (callback : Bool)
    (loop : EventLoop)
  | await (verifier : Nat) (key : Option Nat) (digest signature : Held)
  | cancel (request : Nat)
  | close (verifier : Nat)
  | work (request : Nat)
  | report (request : Nat)
  | finish (request : Nat)
  | resume (request : Nat)
  | drained (verifier : Nat)
  | leave (verifier : Nat)
  deriving DecidableEq, Repr

namespace State

variable {P : Type}

/-- The state after one step. -/
def apply (backend : Backend P) (s : State P) : Event → State P
  | .keyOp op => (s.keyOp backend op).2
  | .addBuffer data => (s.addBuffer data).2
  | .overwrite buffer data => s.overwrite buffer data
  | .addPool accepting => (s.addPool accepting).2
  | .shutDefault => s.shutDefault
  | .openVerifier workers pool => (s.openVerifier workers pool).2
  | .submit v key digest signature callback loop =>
    (s.submit v key digest signature callback loop).2
  | .await v key digest signature => (s.await v key digest signature).2
  | .cancel r => (s.cancel r).2
  | .close v => s.close v
  | .work r => s.work backend r
  | .report r => s.report r
  | .finish r => s.finish r
  | .resume r => (s.resume r).2
  | .drained v => s.drained v
  | .leave v => s.leave v

/-- The state after a sequence of steps. -/
def run (backend : Backend P) (s : State P) (events : List Event) : State P :=
  events.foldl (apply backend) s

/-- The states that a run from nothing can lead to. -/
def Reachable (backend : Backend P) (s : State P) : Prop :=
  ∃ events, s = run backend .empty events

end State

end SecpKey.Verifier
