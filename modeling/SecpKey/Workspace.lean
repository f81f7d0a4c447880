/-
  SecpKey.Workspace

  What the commands on a workspace do.  As long as no command waits, nothing completes; a
  command that waits runs the event loop until it can go on.  `Workspace.run` gives the
  reply to a command and the workspace after it.
-/
import SecpKey.Workspace.Loop

namespace SecpKey.Workspace

variable {P : Type}

/-! ## Reports -/

/-- Put a completion in the order of the identifiers. -/
def insertByIdent (c : Completion) : List Completion → List Completion
  | [] => [c]
  | d :: rest => if c.ident < d.ident then c :: d :: rest else d :: insertByIdent c rest

/-- Report what was submitted to verifier `v` since the last report. -/
def reportDrain (v : Nat) : Act P Reply := do
  let w ← get
  let mine := w.tickets.filter (fun t => t.verifier == v)
  let completed := mine.map fun t =>
    (⟨t.ident, t.probe, w.state.callsOf t.request, futureOf w t.request⟩ : Completion)
  set { w with tickets := w.tickets.filter (fun t => t.verifier != v), raised := [] }
  pure (.drained (completed.foldl (fun l c => insertByIdent c l) []) w.raised)

/-! ## Commands -/

/-- The element at a place; a negative place counts from the end. -/
def placed? {α : Type} (l : List α) (place : Int) : Option α :=
  if 0 ≤ place then l[place.toNat]?
  else if place.natAbs ≤ l.length then l[l.length - place.natAbs]?
  else none

/-- Carry out an operation on key `k`. -/
def performKey (backend : Backend P) (k : Nat) : KeyAction → Act P Reply
  | .getPrivate => do pure (.key (← keyOp backend (.getPrivate k)))
  | .setPrivate data => do pure (.key (← keyOp backend (.setPrivate k (← valueOf data))))
  | .getPublic => do pure (.key (← keyOp backend (.getPublic k)))
  | .setPublic data => do pure (.key (← keyOp backend (.setPublic k (← valueOf data))))
  | .publicPoint => do pure (.key (← keyOp backend (.publicPoint k)))
  | .setCompressed value => do pure (.key (← keyOp backend (.setCompressed k value)))
  | .regenerate => do pure (.key (← keyOp backend (.regenerate k)))
  | .toDer => do pure (.key (← keyOp backend (.toDer k)))
  | .sign digest => do pure (.key (← keyOp backend (.sign k (← valueOf digest))))
  | .verify digest signature => do
    pure (.key (← keyOp backend (.verify k (← valueOf digest) (← valueOf signature))))
  | .equals other => do
    match ← keyOp backend (.equals k (← keyNamed other)) with
    | .truth b => pure (.same b)
    | answer => pure (.key answer)
  | .equalsForeign => pure (.same false)
  | .describe => do pure (.key (← keyOp backend (.describe k)))
  | .curve => do
    match ← keyOp backend (.publicPoint k) with
    | .point? (some (x, y)) =>
      match Curve.secp256k1.contains x y with
      | .ok b => pure (.curve Curve.secp256k1.name b)
      | .error e => throw e
    | _ => pure (.curve Curve.secp256k1.name false)
  | .close => do pure (.key (← keyOp backend (.close k)))
  | .useOnce => do
    match ← keyOp backend (.useOnce k) with
    | .bytes? secret => pure (.used secret)
    | answer => pure (.key answer)

/-- Put a new key under a name. -/
def keepKey (name : String) (answer : KeyAnswer) (reply : List Draw → Reply) : Act P Reply := do
  match answer with
  | .made k left =>
    modify fun w => { w with keys := w.keys.put name k }
    pure (reply left)
  | other => pure (.key other)

/-- Carry out a command. -/
def perform (backend : Backend P) : Command → Act P Reply
  | .new key => do keepKey key (← keyOp backend .new) (fun _ => .done)
  | .generate key draws => do
    keepKey key (← keyOp backend (.generate draws)) (fun left => .left left.length)
  | .ofDer key data => do
    keepKey key (← keyOp backend (.ofDer (← valueOf data))) (fun _ => .done)
  | .onKey key action => do performKey backend (← keyNamed key) action
  | .verifyAsync key verifier digest signature callback => do
    let k ← keyNamed key
    let v ← match verifier with
      | some name => do pure (some (← verifierNamed name))
      | none => pure none
    let digest ← holding digest
    let signature ← holding signature
    let r ← stepping fun s => s.verifyAsync v (some k) digest signature callback
    if callback then awaitCall backend r else pure (.result (← awaitAnswer backend r))
  | .openVerifier verifier workers borrowed => do
    let pool ← match borrowed with
      | none => pure none
      | some accepting => do
        let (pool, state) := (← get).state.addPool accepting
        modify fun w => { w with state := state, borrowed := w.borrowed ++ [pool] }
        pure (some pool)
    let v ← stepping fun s => s.openVerifier workers pool
    modify fun w => { w with verifiers := w.verifiers.put verifier v }
    pure .done
  | .submit first next => do
    discard (submit first next)
    pure .done
  | .cancel verifier ident => do
    let v ← verifierNamed verifier
    -- Identifiers may be used again: the latest one counts.
    match (← get).tickets.reverse.find? (fun t => t.verifier == v && t.ident == ident) with
    | none => throw (.fault (.unknownIdent ident))
    | some t =>
      let (wasOpen, state) := (← get).state.cancel t.request
      setState state
      if wasOpen then enqueue (.complete t.request)
      pure (.truth wasOpen)
  | .drain verifier => do
    let v ← verifierNamed verifier
    waitForDrain backend v
    setState ((← get).state.drained v)
    reportDrain v
  | .leave verifier => do
    let v ← verifierNamed verifier
    waitForDrain backend v
    setState ((← get).state.leave v)
    reportDrain v
  | .verify verifier key digest signature => do
    let v ← verifierNamed verifier
    let k ← keyNamed key
    let digest ← holding digest
    let signature ← holding signature
    let r ← stepping fun s => s.await v (some k) digest signature
    pure (.result (← awaitAnswer backend r))
  | .closeVerifier verifier wait => do
    closeOne (← verifierNamed verifier) wait
    pure .done
  | .describeVerifier verifier => do
    let v ← verifierNamed verifier
    match (← get).state.verifier? v with
    | none => throw (.fault (.unknownName verifier))
    | some ver => pure (.text ver.describe)
  | .usePool place => do
    match placed? (← get).borrowed place with
    | none => throw (.fault .unknownPlace)
    | some pool => do
      usePool pool
      pure (.truth true)
  | .addUnscheduled request verifier key digest signature => do
    let v ← verifierNamed verifier
    let k ← keyNamed key
    let digest ← holding digest
    let signature ← holding signature
    let (r, state) := (← get).state.makeRequest (some k) digest signature
    -- Pending, but in no pool: a drain does not wait for it.
    modify fun w => { w with state := state.pend v r, requests := w.requests.put request r }
    pure .done
  | .makeRequest request key digest signature => do
    let k ← match key with
      | none => pure none
      | some name => do pure (some (← keyNamed name))
    let digest ← holding digest
    let signature ← holding signature
    let (r, state) := (← get).state.makeRequest k digest signature
    modify fun w => { w with state := state, requests := w.requests.put request r }
    pure .done
  | .prepareRequest request => do
    let r ← requestNamed request
    stepping fun s => s.prepareRequest r
    pure .done
  | .runJob request => do
    let r ← requestNamed request
    match (← get).state.runJob backend r with
    | .ok result => pure (.result result)
    | .error e => throw e
  | .releaseRequest request => do
    let r ← requestNamed request
    setState ((← get).state.releaseRequest r)
    pure .done
  | .showRequest request => do
    discard (requestNamed request)
    pure .done

/-- The reply to a command, and the workspace after it. -/
def run (backend : Backend P) (w : Workspace P) (command : Command) :
    Except Failure Reply × Workspace P :=
  Id.run (StateT.run (ExceptT.run (perform backend command)) w)

/-- Keep a value under a name. -/
def save (w : Workspace P) (name : String) (a : Argument) : Workspace P :=
  { w with saved := w.saved.put name a }

/-! ## Views -/

/-- The key under a name. -/
def key? (w : Workspace P) (name : String) : Option (Key P) :=
  (w.keys.get? name).bind (fun k => w.state.ring.keys[k]?)

/-- The verifier under a name. -/
def verifier? (w : Workspace P) (name : String) : Option Verifier :=
  (w.verifiers.get? name).bind w.state.verifier?

/-- The request under a name. -/
def request? (w : Workspace P) (name : String) : Option (Verifier.Request P) :=
  (w.requests.get? name).bind w.state.request?

end SecpKey.Workspace
