/-
  SecpKey.Workspace.Loop

  The event loop of a workspace.  It runs only while a command waits, and only until that
  command goes on: then the rest of the queue stays where it is.  When nothing is ready,
  the oldest request in a pool is answered; the worker goes on to the jobs behind it as
  long as they are short.

  A wait ends by a handle of its own.  The answer to a request readies first the
  completion of that request and then what waits for the answer, so a drain sees every
  request that it waited for completed.
-/
import SecpKey.Workspace.Basic

namespace SecpKey.Workspace

variable {P : Type}

/-! ## One handle -/

/-- Complete a submission: its callback runs, and it is dropped.  What the callback raises
is noted and does no more. -/
def complete (r : Nat) : Act P Unit := do
  let before := (← get).state.calls.length
  setState ((← get).state.report r)
  if before < (← get).state.calls.length then
    match (← get).plans.find? (fun plan => plan.request == r) with
    | none => pure ()
    | some plan =>
      tryCatch (react plan) fun e => modify fun w => { w with raised := w.raised ++ [e] }
  setState ((← get).state.finish r)

/-- The handles that the end of request `r` readies, in this order. -/
def consequences (w : Workspace P) (r : Nat) : List Handle :=
  let completion : List Handle :=
    match (w.state.request? r).map Verifier.Request.origin with
    | some (.submitted _) => [.complete r]
    | _ => []
  let waiting : List Handle :=
    match w.waiting with
    | .nothing => []
    | .answer q => if q = r then [.wake] else []
    | .all requests _ => if requests.contains r then [.gathered] else []
  completion ++ waiting

/-- A worker's answer to request `r` arrives, unless its future is done already. -/
def answer (backend : Backend P) (r : Nat) : Act P Unit := do
  if isScheduled (← get).state r then
    setState ((← get).state.work backend r)
    modify fun w => { w with ready := w.ready ++ consequences w r }

/-- Count one of the futures that the command at work waits for. -/
def countGathered : Act P Unit := do
  match (← get).waiting with
  | .all requests missing =>
    modify fun w => { w with waiting := .all requests (missing - 1) }
    if missing ≤ 1 then enqueue .wake
  | _ => pure ()

def runHandle (backend : Backend P) : Handle → Act P Unit
  | .answer r => answer backend r
  | .complete r => complete r
  | .gathered => countGathered
  | .wake => pure ()

/-! ## Waiting -/

/-- The oldest request that is in a pool. -/
def oldestScheduled? (s : Verifier.State P) : Option Nat :=
  (List.range s.requests.length).find? (isScheduled s)

/-- Request `r` and the short jobs behind it in its pool. -/
def inOneGo (s : Verifier.State P) (r : Nat) : List Nat :=
  r :: ((scheduledIn s (poolOf s r)).filter (r < ·)).takeWhile (isShort s)

/-- Let a pool answer. -/
def deliver : Act P Unit := do
  let s := (← get).state
  match oldestScheduled? s with
  | none => pure ()
  | some r =>
    for q in inOneGo s r do
      enqueue (.answer q)

/-- No more steps than this are left for the loop: what is ready now, and at most four
for each request that there is or will be, which are delivered, answered, completed and
counted, and two for a wait. -/
def stepsLeft (w : Workspace P) : Nat :=
  w.ready.length + 4 * (w.state.requests.length + (w.plans.flatMap (·.next)).length) + 2

/-- Run the loop until the command that waits goes on. -/
def runUntilWoken (backend : Backend P) : Nat → Act P Unit
  | 0 => pure ()
  | steps + 1 => do
    match (← get).ready with
    -- Nothing is ready, so only a worker can bring something.
    | [] => do
      deliver
      runUntilWoken backend steps
    | handle :: rest => do
      modify fun w => { w with ready := rest }
      if handle = .wake then pure ()
      else do
        runHandle backend handle
        runUntilWoken backend steps

def waitFor (backend : Backend P) (wait : Wait) : Act P Unit := do
  modify fun w => { w with waiting := wait }
  runUntilWoken backend (stepsLeft (← get))
  modify fun w => { w with waiting := .nothing }

/-- Wait until the futures of `requests` are done and have been counted; without any, do
not wait. -/
def waitForAll (backend : Backend P) (requests : List Nat) : Act P Unit := do
  if !requests.isEmpty then
    let s := (← get).state
    -- Futures that were done before are counted by the loop as well.
    for _ in requests.filter (isSettled s) do
      enqueue .gathered
    waitFor backend (.all (requests.filter (isScheduled s)) requests.length)

/-- Let everything that is ready now run, or, if nothing is, an answer arrive. -/
def takeTurn (backend : Backend P) : Act P Unit := do
  if (← get).ready.isEmpty then deliver
  enqueue .wake
  waitFor backend .nothing

/-- Take turns until verifier `v` has nothing left but requests without a future. -/
def settle (backend : Backend P) (v : Nat) : Nat → Act P Unit
  | 0 => pure ()
  | turns + 1 => do
    if !(← get).state.isDrained v then
      takeTurn backend
      settle backend v turns

/-- The pending requests of verifier `v` that have a future. -/
def pendingFutures (s : Verifier.State P) (v : Nat) : List Nat :=
  ((s.verifier? v).map (·.pending)).getD [] |>.filter s.hasFuture

/-- Wait for everything that was submitted to verifier `v`. -/
def waitForDrain (backend : Backend P) (v : Nat) : Act P Unit := do
  waitForAll backend (pendingFutures (← get).state v)
  settle backend v (stepsLeft (← get))

/-! ## Verifying -/

/-- Wait for the answer to a request that a coroutine has started. -/
def awaitAnswer (backend : Backend P) (r : Nat) : Act P VerifyResult := do
  enqueueMade r
  waitFor backend (.answer r)
  let (outcome, state) := (← get).state.resume r
  setState state
  match outcome with
  | some (.ok result) => pure result
  | some (.error e) => throw e
  | none => throw (.fault .cancelled)

/-- Wait for the call of a callback that does no more than note it. -/
def awaitCall (backend : Backend P) (r : Nat) : Act P Reply := do
  enqueueMade r
  waitForAll backend [r]
  pure (.called ((← get).state.callsOf r) (futureOf (← get) r))

/-! ## Waiting for a pool -/

/-- Wait until a pool has done everything that it was given.  All its answers arrive; the
requests themselves are completed when the loop runs. -/
def emptyPool (pool : Option Nat) : Act P Unit := do
  for r in scheduledIn (← get).state pool do
    enqueue (.answer r)

/-- Close verifier `v`, and wait for its pool if that is its own. -/
def closeOne (v : Nat) (wait : Bool) : Act P Unit := do
  match (← get).state.verifier? v with
  | none => pure ()
  | some ver => if wait && ver.ownsPool then emptyPool ver.pool
  setState ((← get).state.close v)

/-- Have a borrowed pool do a job of no consequence and wait for it. -/
def usePool (pool : Nat) : Act P Unit := do
  if (← get).state.pools.getD pool false then
    discard (noteJob (some pool))
    emptyPool (some pool)
  else throw (.fault .jobRefused)

end SecpKey.Workspace
