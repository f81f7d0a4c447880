/-
  SecpKey.Workspace.Basic

  Named keys, verifiers and requests in one event loop.  A workspace holds the state of
  the verifiers, what its names stand for, what has been submitted, and the queue of what
  the loop will run next.  Whatever gets ready joins the end of the queue, and nothing
  ever leaves it out of turn.
-/
import SecpKey.Workspace.Command

namespace SecpKey

namespace Workspace

/-- What is kept of a submission until its callback is called. -/
structure Plan where
  request : Nat
  reaction : Reaction
  /-- The submissions that follow, one from the callback of the other. -/
  next : List Submission

/-- A submission that no drain has reported yet. -/
structure Ticket where
  verifier : Nat
  ident : Int
  probe : Bool
  request : Nat

/-- Something that the event loop will run. -/
inductive Handle where
  /-- A worker's answer to a request arrives. -/
  | answer (request : Nat)
  /-- The future of a submitted request is done, and the request is completed. -/
  | complete (request : Nat)
  /-- One of the futures that a command waits for is done. -/
  | gathered
  /-- The command that waits goes on. -/
  | wake
  deriving DecidableEq, Repr

/-- What the command at work waits for. -/
inductive Wait where
  | nothing
  /-- The answer to one request. -/
  | answer (request : Nat)
  /-- The answers to `requests`; `missing` futures have not been counted yet, those that
  were done from the start included. -/
  | all (requests : List Nat) (missing : Nat)
  deriving DecidableEq, Repr

end Workspace

/-- Named keys, verifiers and requests, and an event loop. -/
structure Workspace (P : Type) where
  state : Verifier.State P
  keys : Slots Nat
  verifiers : Slots Nat
  requests : Slots Nat
  saved : Slots Argument
  /-- The borrowed pools, in the order they were made. -/
  borrowed : List Nat
  /-- The pools that have been given a job before. -/
  started : List (Option Nat)
  plans : List Workspace.Plan
  tickets : List Workspace.Ticket
  /-- What callbacks have raised since the last drain. -/
  raised : List Failure
  /-- What the loop will run, first thing first. -/
  ready : List Workspace.Handle
  waiting : Workspace.Wait

namespace Workspace

variable {P : Type}

def empty : Workspace P :=
  ⟨.empty, .empty, .empty, .empty, .empty, [], [], [], [], [], [], .nothing⟩

/-- A command at work: it may fail, and what it has done until then stays. -/
abbrev Act (P : Type) (α : Type) := ExceptT Failure (StateM (Workspace P)) α

/-! ## Names and arguments -/

/-- What a name stands for. -/
def named {α : Type} (slots : Slots α) (name : String) : Act P α :=
  match slots.get? name with
  | none => throw (.fault (.unknownName name))
  | some a => pure a

def keyNamed (name : String) : Act P Nat := do named (← get).keys name

def verifierNamed (name : String) : Act P Nat := do named (← get).verifiers name

def requestNamed (name : String) : Act P Nat := do named (← get).requests name

def setState (state : Verifier.State P) : Act P Unit := modify fun w => { w with state := state }

/-- Carry out a step that may fail. -/
def stepping {α : Type} (f : Verifier.State P → Except Failure α × Verifier.State P) :
    Act P α := do
  let (answer, state) := f (← get).state
  setState state
  match answer with
  | .ok a => pure a
  | .error e => throw e

def valueOf : Source → Act P Argument
  | .value a => pure a
  | .buffer data => pure (.bytes data)
  | .saved name => do named (← get).saved name

/-- An argument as a request holds it. -/
def holding : Source → Act P Verifier.Held
  | .buffer data => do
    let (id, state) := (← get).state.addBuffer data
    setState state
    pure (.buffer id)
  | source => do pure (.value (← valueOf source))

/-- Overwrite with zeros what is a buffer. -/
def clobber : Verifier.Held → Act P Unit
  | .value _ => pure ()
  | .buffer id => do
    let state := (← get).state
    setState (state.overwrite id (List.replicate (state.buffers.getD id []).length 0))

def keyOp (backend : Backend P) (op : KeyOp) : Act P KeyAnswer :=
  stepping fun s => s.keyOp backend op

/-! ## The queue -/

/-- Let the loop run `handle` after everything that is ready now. -/
def enqueue (handle : Handle) : Act P Unit :=
  modify fun w => { w with ready := w.ready ++ [handle] }

/-- Whether request `r` has a future that will not change any more. -/
def isSettled (s : Verifier.State P) (r : Nat) : Bool :=
  (((s.request? r).bind (·.future)).map (·.isDone)).getD false

/-- Whether request `r` is in a pool that has not answered it. -/
def isScheduled (s : Verifier.State P) (r : Nat) : Bool :=
  (((s.request? r).bind (·.future)).map (fun future => !future.isDone)).getD false

/-- Whether request `r` is in a pool with a job that is short. -/
def isShort (s : Verifier.State P) (r : Nat) : Bool :=
  match (s.request? r).bind (·.future) with
  | some (.scheduled job) => job.isShort s.buffers
  | _ => false

/-- The verifier that request `r` was made for. -/
def verifierOf? (s : Verifier.State P) (r : Nat) : Option Nat :=
  (s.request? r).bind (·.origin.host?)

/-- The pool of request `r`; none for the one that comes with the loop. -/
def poolOf (s : Verifier.State P) (r : Nat) : Option Nat :=
  ((verifierOf? s r).bind s.verifier?).bind (·.pool)

/-- The requests that a pool has not answered, oldest first. -/
def scheduledIn (s : Verifier.State P) (pool : Option Nat) : List Nat :=
  (List.range s.requests.length).filter fun r => isScheduled s r && poolOf s r == pool

/-- Take note of a job for a pool; answers whether it is the first. -/
def noteJob (pool : Option Nat) : Act P Bool := do
  if (← get).started.contains pool then pure false
  else do
    modify fun w => { w with started := pool :: w.started }
    pure true

/-- Queue what follows at once from making request `r`.  What was refused is ready to be
completed.  The first job of a pool brings its worker to life, which gets through a short
one before anything else happens. -/
def enqueueMade (r : Nat) : Act P Unit := do
  let s := (← get).state
  if isSettled s r then enqueue (.complete r)
  else if isScheduled s r then
    if (← noteJob (poolOf s r)) && isShort s r then enqueue (.answer r)

/-! ## Submissions -/

/-- Make a submission; the ones behind it wait for its callback. -/
def submit (first : Submission) (next : List Submission) : Act P Nat := do
  let v ← verifierNamed first.verifier
  let k ← keyNamed first.key
  let digest ← holding first.digest
  let signature ← holding first.signature
  let r ← stepping fun s => s.submit v (some k) digest signature first.reaction.isSome .running
  match first.reaction with
  | none => pure ()
  | some reaction => modify fun w => { w with plans := w.plans ++ [⟨r, reaction, next⟩] }
  modify fun w => { w with tickets := w.tickets ++ [⟨v, first.ident, first.probe, r⟩] }
  enqueueMade r
  if first.clobber then
    clobber digest
    clobber signature
  pure r

/-- What the callback of a submission does. -/
def react (plan : Plan) : Act P Unit := do
  match plan.next with
  | [] => pure ()
  | first :: next => discard (submit first next)
  match plan.reaction.raises with
  | none => pure ()
  | some text => throw (.fault (.raised text))

/-- The future of request `r`. -/
def futureOf (w : Workspace P) (r : Nat) : FutureView :=
  .ofFuture ((w.state.request? r).bind (·.future))

end Workspace

end SecpKey
