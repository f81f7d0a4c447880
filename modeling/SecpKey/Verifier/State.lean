/-
  SecpKey.Verifier.State

  Any number of verifiers, the pools that do their work, and every request ever made, as
  one state.  Each definition below is one atomic step: what a client calls, what a
  worker finishes, what the event loop runs next.  A step that is not due changes nothing.

  A request made by `submit` is reported in two steps, `report` (its callback is called)
  and `finish` (it leaves the pending set), so that whatever a callback does happens in
  between.  `submit` can still fail when its request is pending, and then neither of the two
  will ever be due: the request stays until a drain drops it, if one can end.
-/
import SecpKey.Keyring
import SecpKey.Verifier.Request

namespace SecpKey

/-- A verifier.  Requests are named by number. -/
structure Verifier where
  /-- Its pool; none for the pool that every event loop comes with. -/
  pool : Option Nat
  /-- Whether the pool was made for this verifier alone. -/
  ownsPool : Bool
  pending : List Nat
  closed : Bool
  deriving DecidableEq, Repr

/-- A text with the number of pending requests and whether the verifier is closed. -/
def Verifier.describe (v : Verifier) : String :=
  "SignatureVerifier(pending=" ++ toString v.pending.length ++ ", closed="
    ++ Key.truthName v.closed ++ ")"

namespace Verifier

/-- What the pool of a verifier refuses jobs with once it is shut down. -/
def refusal (ver : Verifier) : Failure :=
  match ver.pool with
  | none => .fault .defaultPoolShut
  | some _ => .fault .jobRefused

/-- The event loop that a submission is to be completed on. -/
inductive EventLoop where
  | running
  | closed
  deriving DecidableEq, Repr

/-- What a loop refuses everything with that it is asked to run. -/
def EventLoop.refusal? : EventLoop → Option Failure
  | .running => none
  | .closed => some (.fault .loopClosed)

/-- The failure that leaves a submission when its request is pending already, after preparing
it came to `prepared`.  Only the library's own failures are caught there, and to no future on a
closed loop can a completion be attached. -/
def late (loop : EventLoop) (prepared : Except Failure Unit) : Option Failure :=
  match prepared with
  | .ok () => loop.refusal?
  | .error e => if e.isLibrary then loop.refusal? else some e

/-- One call of a callback. -/
structure Call where
  request : Nat
  error : Option Failure
  result : Option VerifyResult
  /-- The number of pending requests at that moment. -/
  pending : Nat
  deriving DecidableEq, Repr

/-- Verifiers, pools and requests, with the keys and buffers that the requests refer to. -/
structure State (P : Type) where
  ring : Keyring P
  /-- The callers' own buffers. -/
  buffers : List Bytes
  /-- For each pool whether it still accepts jobs. -/
  pools : List Bool
  /-- Whether the pool that comes with the loop still accepts jobs. -/
  defaultPool : Bool
  verifiers : List Verifier
  requests : List (Request P)
  /-- All calls of callbacks, oldest first. -/
  calls : List Call

namespace State

variable {P : Type}

def empty : State P := ⟨.empty, [], [], true, [], [], []⟩

/-! ## Looking -/

def verifier? (s : State P) (v : Nat) : Option Verifier := s.verifiers[v]?

def request? (s : State P) (r : Nat) : Option (Request P) := s.requests[r]?

/-- Whether the pool of a verifier accepts jobs. -/
def accepts (s : State P) (ver : Verifier) : Bool :=
  match ver.pool with
  | none => s.defaultPool
  | some pool => s.pools.getD pool false

/-- The number of pending requests of a verifier. -/
def pendingCount (s : State P) (v : Nat) : Nat :=
  match s.verifier? v with
  | none => 0
  | some ver => ver.pending.length

/-- Whether request `r` has a future. -/
def hasFuture (s : State P) (r : Nat) : Bool := ((s.request? r).bind (·.future)).isSome

/-- The calls of the callback of request `r`, oldest first. -/
def callsOf (s : State P) (r : Nat) : List Call := s.calls.filter (fun call => call.request == r)

/-- Whether a drain of verifier `v` may end: no pending request has a future. -/
def isDrained (s : State P) (v : Nat) : Bool :=
  match s.verifier? v with
  | none => false
  | some ver => ver.pending.all (fun r => !s.hasFuture r)

/-! ## Changing one entry -/

def setRequest (s : State P) (r : Nat) (request : Request P) : State P :=
  { s with requests := s.requests.set r request }

def setVerifier (s : State P) (v : Nat) (ver : Verifier) : State P :=
  { s with verifiers := s.verifiers.set v ver }

def addRequest (s : State P) (request : Request P) : Nat × State P :=
  (s.requests.length, { s with requests := s.requests ++ [request] })

/-- Put request `r` into the pending set of verifier `v`. -/
def pend (s : State P) (v r : Nat) : State P :=
  match s.verifier? v with
  | none => s
  | some ver => s.setVerifier v { ver with pending := ver.pending ++ [r] }

/-- Add a request, and put it into the pending set of verifier `v`. -/
def enroll (s : State P) (v : Nat) (request : Request P) : State P :=
  let (r, t) := s.addRequest request
  t.pend v r

/-- Take request `r` out of the pending set of verifier `v` and release it. -/
def drop (s : State P) (v r : Nat) : State P :=
  match s.verifier? v, s.request? r with
  | some ver, some request =>
    (s.setVerifier v { ver with pending := ver.pending.filter (· != r) }).setRequest r
      request.release
  | _, _ => s

/-! ## Clients -/

def keyOp (backend : Backend P) (s : State P) (op : KeyOp) :
    Except Failure KeyAnswer × State P :=
  let (answer, ring) := s.ring.perform backend op
  (answer, { s with ring := ring })

/-- A new buffer of a caller, with its number. -/
def addBuffer (s : State P) (data : Bytes) : Nat × State P :=
  (s.buffers.length, { s with buffers := s.buffers ++ [data] })

def overwrite (s : State P) (buffer : Nat) (data : Bytes) : State P :=
  { s with buffers := s.buffers.set buffer data }

/-- A new pool, with its number. -/
def addPool (s : State P) (accepting : Bool) : Nat × State P :=
  (s.pools.length, { s with pools := s.pools ++ [accepting] })

/-- Shut down the pool that comes with the loop. -/
def shutDefault (s : State P) : State P := { s with defaultPool := false }

/-- A new verifier: with a pool of its own, a borrowed one, or neither. -/
def openVerifier (s : State P) (workers : Option Int) (pool : Option Nat) :
    Except Failure Nat × State P :=
  match workers, pool with
  | some _, some _ => (.error (.fault .poolAndWorkers), s)
  | some count, none =>
    if count < 1 then (.error (.fault .noWorkers), s)
    else
      let (own, s) := s.addPool true
      (.ok s.verifiers.length, { s with verifiers := s.verifiers ++ [⟨some own, true, [], false⟩] })
  | none, pool =>
    (.ok s.verifiers.length, { s with verifiers := s.verifiers ++ [⟨pool, false, [], false⟩] })

/-- An open verifier, or the fault that there is none. -/
def openOne (s : State P) (v : Nat) : Except Failure Verifier :=
  match s.verifier? v with
  | none => .error (.fault (.unknownName (toString v)))
  | some ver => if ver.closed then .error (.fault .verifierClosed) else .ok ver

/-- The future of a request that was just prepared; a failure that is not caught leaves it
without one. -/
def futureOf? (s : State P) (ver : Verifier) (loop : EventLoop) (prepared : Except Failure Unit)
    (r : Request P) : Option (Future P) :=
  match prepared with
  | .error e => if e.isLibrary then some (.done (.error e)) else none
  | .ok () =>
    match loop.refusal? with
    | some e => some (.done (.error e))
    | none => some (if s.accepts ver then .scheduled r.job else .done (.error ver.refusal))

/-- The request that a submission makes, and what preparing it came to. -/
def submission (s : State P) (ver : Verifier) (v : Nat) (key : Option Nat)
    (digest signature : Held) (callback : Bool) (loop : EventLoop) :
    Except Failure Unit × Request P :=
  let request : Request P := .fresh (.submitted v) key digest signature callback
  let (prepared, request) := request.prepare s.ring.point? s.buffers
  (prepared, { request with future := s.futureOf? ver loop prepared request })

/-- Submit a verification.  What the library finds wrong with it, or what the pool refuses it
with, becomes the outcome of its future; a closed verifier refuses it at once. -/
def submit (s : State P) (v : Nat) (key : Option Nat) (digest signature : Held)
    (callback : Bool) (loop : EventLoop) : Except Failure Nat × State P :=
  match s.openOne v with
  | .error e => (.error e, s)
  | .ok ver =>
    let (prepared, request) := s.submission ver v key digest signature callback loop
    -- Pending in any case: its completion takes it out again, also when it was refused.
    match late loop prepared with
    | none => (.ok s.requests.length, s.enroll v request)
    -- Also when there will be no completion.
    | some e => (.error e, s.enroll v (request.strand v))

/-- Start a verification on behalf of a coroutine.  What is wrong with it, or with the
pool, is raised at once and leaves nothing behind. -/
def await (s : State P) (v : Nat) (key : Option Nat) (digest signature : Held) :
    Except Failure Nat × State P :=
  match s.openOne v with
  | .error e => (.error e, s)
  | .ok ver =>
    let request : Request P := .fresh (.awaited v) key digest signature false
    match request.prepare s.ring.point? s.buffers with
    | (.error e, _) => (.error e, s)
    | (.ok (), request) =>
      if s.accepts ver then
        (.ok s.requests.length,
          s.enroll v { request with future := some (.scheduled request.job) })
      else (.error ver.refusal, s)

/-- Verify with a key on verifier `v`, or else on a new one: a submission if there is a
callback, and a coroutine otherwise. -/
def verifyAsync (s : State P) (v : Option Nat) (key : Option Nat) (digest signature : Held)
    (callback : Bool) : Except Failure Nat × State P :=
  let (opened, s) : Except Failure Nat × State P :=
    match v with
    | some v => (.ok v, s)
    | none => s.openVerifier none none
  match opened with
  | .error e => (.error e, s)
  | .ok v =>
    if callback then s.submit v key digest signature true .running
    else s.await v key digest signature

/-- Cancel the future of a request; answers whether it was still open. -/
def cancel (s : State P) (r : Nat) : Bool × State P :=
  match s.request? r with
  | none => (false, s)
  | some request =>
    match request.future with
    | some (.scheduled _) => (true, s.setRequest r { request with future := some .cancelled })
    | _ => (false, s)

/-- Close a verifier, and shut down its pool if it made that itself. -/
def close (s : State P) (v : Nat) : State P :=
  match s.verifier? v with
  | none => s
  | some ver =>
    let s := s.setVerifier v { ver with closed := true }
    match ver.ownsPool, ver.pool with
    | true, some pool => { s with pools := s.pools.set pool false }
    | _, _ => s

/-! ## Workers and the event loop -/

/-- A worker's answer arrives: the job of request `r` is done. -/
def work (backend : Backend P) (s : State P) (r : Nat) : State P :=
  match s.request? r with
  | none => s
  | some request =>
    match request.future with
    | some (.scheduled job) =>
      s.setRequest r { request with future := some (.done (job.run backend s.buffers)) }
    | _ => s

/-- What a callback is told of a future: exactly one of the two is there. -/
def told : Future P → Option (Option Failure × Option VerifyResult)
  | .scheduled _ => none
  | .cancelled => some (some (.fault .cancelled), none)
  | .done (.error e) => some (some e, none)
  | .done (.ok r) => some (none, some r)

/-- The event loop runs the completion of a submitted request whose future is done: the
request is marked, and its callback is called, if it has one. -/
def report (s : State P) (r : Nat) : State P :=
  match s.request? r with
  | none => s
  | some request =>
    match request.origin, request.completed, request.future.bind told with
    | .submitted v, false, some (error, result) =>
      let s := s.setRequest r { request with completed := true }
      if request.callback then
        -- The request itself is still among the pending ones that are counted.
        { s with calls := s.calls ++ [⟨r, error, result, s.pendingCount v⟩] }
      else s
    | _, _, _ => s

/-- The callback of a reported request has returned or raised: the request is dropped. -/
def finish (s : State P) (r : Nat) : State P :=
  match s.request? r with
  | none => s
  | some request =>
    match request.origin, request.completed with
    | .submitted v, true => s.drop v r
    | _, _ => s

/-- What a coroutine is handed of a future. -/
def handed : Future P → Option (Except Failure VerifyResult)
  | .scheduled _ => none
  | .cancelled => some (.error (.fault .cancelled))
  | .done outcome => some outcome

/-- The coroutine of a request whose future is done goes on: the request is dropped and
the outcome is handed over. -/
def resume (s : State P) (r : Nat) : Option (Except Failure VerifyResult) × State P :=
  match s.request? r with
  | none => (none, s)
  | some request =>
    match request.origin, request.future.bind handed with
    | .awaited v, some outcome =>
      -- A coroutine goes on once: after that its request is no longer pending.
      if ((s.verifier? v).map (·.pending.contains r)).getD false then
        (some outcome, s.drop v r)
      else (none, s)
    | _, _ => (none, s)

/-- A drain of verifier `v` ends: what is still pending has no future and is dropped. -/
def drained (s : State P) (v : Nat) : State P :=
  match s.verifier? v with
  | none => s
  | some ver => if s.isDrained v then ver.pending.foldl (fun s r => s.drop v r) s else s

/-- A block around verifier `v` ends with a drain and a close. -/
def leave (s : State P) (v : Nat) : State P :=
  if s.isDrained v then (s.drained v).close v else s

/-! ## Requests by hand -/

/-- A request that a client makes for itself, with its number. -/
def makeRequest (s : State P) (key : Option Nat) (digest signature : Held) : Nat × State P :=
  s.addRequest (.fresh .client key digest signature false)

def prepareRequest (s : State P) (r : Nat) : Except Failure Unit × State P :=
  match s.request? r with
  | none => (.error (.fault (.unknownName (toString r))), s)
  | some request =>
    let (prepared, request) := request.prepare s.ring.point? s.buffers
    (prepared, s.setRequest r request)

/-- Build the job of a request and run it on the spot. -/
def runJob (backend : Backend P) (s : State P) (r : Nat) : Except Failure VerifyResult :=
  match s.request? r with
  | none => .error (.fault (.unknownName (toString r)))
  | some request => request.job.run backend s.buffers

def releaseRequest (s : State P) (r : Nat) : State P :=
  match s.request? r with
  | none => s
  | some request => s.setRequest r request.release

end State

end Verifier

end SecpKey
