/-
  SecpKey.Proofs.Verifier.Step

  What one step does, said once.  `Step` has a rule for each way in which a step can go, with the
  conditions under which it goes that way and the state that it leads to; a step that is refused
  or not due leads nowhere.  `step` says that there is no other way.  What a step does to
  requests and calls, to pending sets, and to pools is read off these rules.

  A verification is taken in (`Enters`) and later finishes (`Finishes`).  One whose submission
  fails too late is taken in without ever finishing (`Strands`), and is there until a drain ends
  (`Drains`).
-/
import SecpKey.Proofs.Verifier.Access
import SecpKey.Proofs.Verifier.Job
import SecpKey.Verifier.Event

namespace SecpKey.Verifier.State

variable {P : Type} {backend : Backend P} {s t : State P} {e : Event} {v r : Nat}
  {ver : Verifier} {key : Option Nat} {digest signature : Held} {callback : Bool}
  {loop : EventLoop} {request : Request P}

/-! ## Coming and going -/

/-- A verification as it is handed over. -/
structure Entry (P : Type) where
  origin : Origin
  key : Option Nat
  digest : Held
  signature : Held
  callback : Bool
  /-- The state in which it is handed over. -/
  state : State P

/-- The event hands over a verification, and it is taken in as request `r` of verifier `v`. -/
inductive Enters (s : State P) : Event → Nat → Nat → Entry P → Prop
  | submitted {v : Nat} {key : Option Nat} {digest signature : Held} {callback : Bool}
      {loop : EventLoop} {r : Nat}
      (h : (s.submit v key digest signature callback loop).1 = .ok r) :
      Enters s (.submit v key digest signature callback loop) v r
        ⟨.submitted v, key, digest, signature, callback, s⟩
  | awaited {v : Nat} {key : Option Nat} {digest signature : Held} {r : Nat}
      (h : (s.await v key digest signature).1 = .ok r) :
      Enters s (.await v key digest signature) v r
        ⟨.awaited v, key, digest, signature, false, s⟩

/-- The event is a submission that fails although verifier `v` is open, and that leaves request
`r` behind. -/
inductive Strands (s : State P) : Event → Nat → Nat → Entry P → Prop
  | submitted {v : Nat} {ver : Verifier} {key : Option Nat} {digest signature : Held}
      {callback : Bool} {loop : EventLoop} {e : Failure} (hopen : s.openOne v = .ok ver)
      (h : (s.submit v key digest signature callback loop).1 = .error e) :
      Strands s (.submit v key digest signature callback loop) v s.requests.length
        ⟨.stranded v, key, digest, signature, callback, s⟩

/-- The completion of request `r` finishes: the callback of a submission has returned or
raised, or the coroutine that waits for it goes on. -/
inductive Finishes (s : State P) : Event → Nat → Prop
  | returned {r v : Nat} {request : Request P} {ver : Verifier} (hr : s.request? r = some request)
      (horigin : request.origin = .submitted v) (hcompleted : request.completed = true)
      (hv : s.verifier? v = some ver) : Finishes s (.finish r) r
  | resumed {r : Nat} {outcome : Except Failure VerifyResult}
      (h : (s.resume r).1 = some outcome) : Finishes s (.resume r) r

/-- A drain of verifier `v` ends. -/
inductive Drains (s : State P) : Event → Nat → Prop
  | drained {v : Nat} (h : s.isDrained v = true) : Drains s (.drained v) v
  | left {v : Nat} (h : s.isDrained v = true) : Drains s (.leave v) v

/-- Nobody comes and nobody goes. -/
structure Still (s : State P) (e : Event) : Prop where
  enters : ∀ v r entry, ¬ Enters s e v r entry
  strands : ∀ v r entry, ¬ Strands s e v r entry
  finishes : ∀ r, ¬ Finishes s e r
  drains : ∀ v, ¬ Drains s e v

/-- Whether an event of this kind can hand over a verification. -/
def mayEnter : Event → Bool
  | .submit .. | .await .. => true
  | _ => false

/-- Whether a completion can finish with an event of this kind. -/
def mayFinish : Event → Bool
  | .finish _ | .resume _ => true
  | _ => false

/-- Whether a drain can end with an event of this kind. -/
def mayDrain : Event → Bool
  | .drained _ | .leave _ => true
  | _ => false

theorem not_enters (h : mayEnter e = false) (v r : Nat) (entry : Entry P) :
    ¬ Enters s e v r entry := by
  rintro (_ | _)
  · cases h
  · cases h

theorem not_strands (h : mayEnter e = false) (v r : Nat) (entry : Entry P) :
    ¬ Strands s e v r entry := by
  rintro ⟨_, _⟩
  cases h

theorem not_finishes (h : mayFinish e = false) (r : Nat) : ¬ Finishes s e r := by
  rintro (_ | _)
  · cases h
  · cases h

theorem not_drains (h : mayDrain e = false) (v : Nat) : ¬ Drains s e v := by
  rintro (_ | _)
  · cases h
  · cases h

/-- Other kinds of events are still in every state. -/
theorem still_of_quiet (h : mayEnter e = false) (h' : mayFinish e = false)
    (h'' : mayDrain e = false) : Still s e :=
  ⟨not_enters h, not_strands h, not_finishes h', not_drains h''⟩

/-! ## The ways of a step -/

/-- The request of a coroutine, once its inputs have passed. -/
def awaiting (v : Nat) (key : Option Nat) (Q : P) (digest signature : Bytes) : Request P :=
  let request : Request P :=
    { Request.fresh (.awaited v) key (.value (.bytes digest)) (.value (.bytes signature)) false with
        publicKey := some Q }
  { request with future := some (.scheduled request.job) }

/-- The ways in which a step can go. -/
inductive Step (backend : Backend P) (s : State P) : Event → State P → Prop
  /-- At most keys and buffers change. -/
  | aside {e : Event} (ring : Keyring P) (buffers : List Bytes) (h : Still s e) :
      Step backend s e { s with ring := ring, buffers := buffers }
  | lent (accepting : Bool) :
      Step backend s (.addPool accepting) { s with pools := s.pools ++ [accepting] }
  | shutDefault : Step backend s .shutDefault { s with defaultPool := false }
  | borrowed (pool : Option Nat) :
      Step backend s (.openVerifier none pool)
        { s with verifiers := s.verifiers ++ [⟨pool, false, [], false⟩] }
  | staffed (count : Int) :
      Step backend s (.openVerifier (some count) none)
        { s with pools := s.pools ++ [true],
                 verifiers := s.verifiers ++ [⟨some s.pools.length, true, [], false⟩] }
  | closed (v : Nat) : Step backend s (.close v) (s.close v)
  | submitted {v : Nat} {ver : Verifier} {key : Option Nat} {digest signature : Held}
      {callback : Bool} {loop : EventLoop} (hopen : s.openOne v = .ok ver)
      (hlate : late loop (s.submission ver v key digest signature callback loop).1 = none) :
      Step backend s (.submit v key digest signature callback loop)
        (s.enroll v (s.submission ver v key digest signature callback loop).2)
  | stranded {v : Nat} {ver : Verifier} {key : Option Nat} {digest signature : Held}
      {callback : Bool} {loop : EventLoop} {e : Failure} (hopen : s.openOne v = .ok ver)
      (hlate : late loop (s.submission ver v key digest signature callback loop).1 = some e) :
      Step backend s (.submit v key digest signature callback loop)
        (s.enroll v ((s.submission ver v key digest signature callback loop).2.strand v))
  | awaited {v : Nat} {ver : Verifier} {key : Option Nat} {digest signature : Held} {Q : P}
      {d b : Bytes} (hopen : s.openOne v = .ok ver)
      (hchecked : checkInputs (key.bind s.ring.point?) (digest.look s.buffers)
        (signature.look s.buffers) = .ok (Q, d, b))
      (haccepts : s.accepts ver = true) :
      Step backend s (.await v key digest signature) (s.enroll v (awaiting v key Q d b))
  | cancelled {r : Nat} {request : Request P} {job : Job P} (hr : s.request? r = some request)
      (hfuture : request.future = some (.scheduled job)) :
      Step backend s (.cancel r) (s.setRequest r { request with future := some .cancelled })
  | answered {r : Nat} {request : Request P} {job : Job P} (hr : s.request? r = some request)
      (hfuture : request.future = some (.scheduled job)) :
      Step backend s (.work r)
        (s.setRequest r { request with future := some (.done (job.run backend s.buffers)) })
  | reported {r v : Nat} {request : Request P} {error : Option Failure}
      {result : Option VerifyResult} (hr : s.request? r = some request)
      (horigin : request.origin = .submitted v) (hopen : request.completed = false)
      (htold : request.future.bind told = some (error, result)) :
      Step backend s (.report r)
        { s.setRequest r { request with completed := true } with
          calls := s.calls
            ++ if request.callback then [⟨r, error, result, s.pendingCount v⟩] else [] }
  | finished {r v : Nat} {request : Request P} (hr : s.request? r = some request)
      (horigin : request.origin = .submitted v) (hcompleted : request.completed = true)
      (hv : (s.verifier? v).isSome = true) : Step backend s (.finish r) (s.drop v r)
  | resumed {r v : Nat} {request : Request P} {outcome : Except Failure VerifyResult}
      (hr : s.request? r = some request) (horigin : request.origin = .awaited v)
      (hhanded : request.future.bind handed = some outcome) (hpending : s.IsPending v r) :
      Step backend s (.resume r) (s.drop v r)
  | drained {v : Nat} (h : s.isDrained v = true) :
      Step backend s (.drained v) (s.dropAll v (s.pendingOf v))
  | left {v : Nat} (h : s.isDrained v = true) :
      Step backend s (.leave v) ((s.dropAll v (s.pendingOf v)).close v)

/-- A step that leads nowhere. -/
theorem Step.still (h : Still s e) : Step backend s e s := .aside s.ring s.buffers h

/-! ## Handing over -/

/-- The request of a submission is new, and waits for the verifier. -/
theorem submission_keeps (s : State P) (ver : Verifier) (v : Nat) (key : Option Nat)
    (digest signature : Held) (callback : Bool) (loop : EventLoop) :
    let made := (s.submission ver v key digest signature callback loop).2
    made.origin = .submitted v ∧ made.callback = callback ∧ made.completed = false :=
  Request.prepare_keeps s.ring.point? s.buffers
    (.fresh (.submitted v) key digest signature callback)

/-- Unless a submission fails, its request starts with what is wrong with it, or with what the
pool says. -/
theorem futureOf?_of_late_none {prepared : Except Failure Unit}
    (hlate : late loop prepared = none) (s : State P) (ver : Verifier) (request : Request P) :
    (∃ e, prepared = .error e ∧ s.futureOf? ver loop prepared request = some (.done (.error e)))
      ∨ prepared = .ok () ∧ s.futureOf? ver loop prepared request
        = some (if s.accepts ver then .scheduled request.job else .done (.error ver.refusal)) := by
  cases prepared with
  | error e =>
      by_cases he : e.isLibrary = true
      · exact .inl ⟨e, rfl, if_pos he⟩
      · rw [late, if_neg he] at hlate
        cases hlate
  | ok _ =>
      have hloop : loop.refusal? = none := hlate
      refine .inr ⟨rfl, ?_⟩
      rw [futureOf?, hloop]

/-- An open verifier takes every submission in, also one that fails. -/
theorem submit_of_open (hopen : s.openOne v = .ok ver) (key : Option Nat)
    (digest signature : Held) (callback : Bool) (loop : EventLoop) :
    s.submit v key digest signature callback loop
      = match late loop (s.submission ver v key digest signature callback loop).1 with
        | none => (.ok s.requests.length,
            s.enroll v (s.submission ver v key digest signature callback loop).2)
        | some e => (.error e,
            s.enroll v ((s.submission ver v key digest signature callback loop).2.strand v)) := by
  rewrite [submit, hopen]
  rfl

theorem submit_of_late_none (hopen : s.openOne v = .ok ver)
    (hlate : late loop (s.submission ver v key digest signature callback loop).1 = none) :
    s.submit v key digest signature callback loop = (.ok s.requests.length,
      s.enroll v (s.submission ver v key digest signature callback loop).2) := by
  rw [submit_of_open hopen, hlate]

theorem submit_of_late_some {failure : Failure} (hopen : s.openOne v = .ok ver)
    (hlate : late loop (s.submission ver v key digest signature callback loop).1
      = some failure) :
    s.submit v key digest signature callback loop = (.error failure,
      s.enroll v ((s.submission ver v key digest signature callback loop).2.strand v)) := by
  rw [submit_of_open hopen, hlate]

theorem submit_of_not_open {failure : Failure} (hopen : s.openOne v = .error failure)
    (key : Option Nat) (digest signature : Held) (callback : Bool) (loop : EventLoop) :
    s.submit v key digest signature callback loop = (.error failure, s) := by
  rw [submit, hopen]

theorem step_submit (v : Nat) (key : Option Nat) (digest signature : Held) (callback : Bool)
    (loop : EventLoop) : Step backend s (.submit v key digest signature callback loop)
      (s.submit v key digest signature callback loop).2 := by
  cases hopen : s.openOne v with
  | error failure =>
      have hsubmit := submit_of_not_open hopen key digest signature callback loop
      rw [hsubmit]
      refine .still ⟨?_, ?_, not_finishes rfl, not_drains rfl⟩
      · rintro w q entry (h | _)
        rw [hsubmit] at h
        cases h
      · rintro w q entry ⟨hopen', -⟩
        rw [hopen] at hopen'
        cases hopen'
  | ok ver =>
      cases hlate : late loop (s.submission ver v key digest signature callback loop).1 with
      | none =>
          rw [submit_of_late_none hopen hlate]
          exact .submitted hopen hlate
      | some failure =>
          rw [submit_of_late_some hopen hlate]
          exact .stranded hopen hlate

/-- An open verifier starts a coroutine if the inputs pass and the pool takes the job. -/
theorem await_of_open (hopen : s.openOne v = .ok ver) (key : Option Nat)
    (digest signature : Held) :
    s.await v key digest signature
      = match checkInputs (key.bind s.ring.point?) (digest.look s.buffers)
          (signature.look s.buffers) with
        | .error e => (.error e, s)
        | .ok (Q, d, b) =>
          if s.accepts ver then (.ok s.requests.length, s.enroll v (awaiting v key Q d b))
          else (.error ver.refusal, s) := by
  have hfst : ((Request.fresh (.awaited v) key digest signature false).prepare s.ring.point?
        s.buffers).1
      = (checkInputs (key.bind s.ring.point?) (digest.look s.buffers)
          (signature.look s.buffers)).map fun _ => () := Request.prepare_fst _ _ _
  rw [await, hopen]
  dsimp only
  cases hcheck : checkInputs (key.bind s.ring.point?) (digest.look s.buffers)
    (signature.look s.buffers) with
  | error e =>
      rw [hcheck] at hfst
      split
      · next f _ hprepare =>
        rw [hprepare] at hfst
        cases hfst
        rfl
      · next hprepare =>
        rw [hprepare] at hfst
        cases hfst
  | ok inputs =>
      obtain ⟨Q, d, b⟩ := inputs
      have hprepare : (Request.fresh (.awaited v) key digest signature false).prepare s.ring.point?
          s.buffers = _ := Request.prepare_of_ok hcheck
      rw [hprepare]
      rfl

/-- A coroutine that is not started leaves everything as it was. -/
theorem await_eq_or (v : Nat) (key : Option Nat) (digest signature : Held) :
    (∃ failure, s.await v key digest signature = (.error failure, s))
      ∨ ∃ ver Q d b, s.openOne v = .ok ver ∧ s.accepts ver = true
        ∧ checkInputs (key.bind s.ring.point?) (digest.look s.buffers)
          (signature.look s.buffers) = .ok (Q, d, b)
        ∧ s.await v key digest signature
          = (.ok s.requests.length, s.enroll v (awaiting v key Q d b)) := by
  cases hopen : s.openOne v with
  | error failure => exact .inl ⟨failure, by rw [await, hopen]⟩
  | ok ver =>
      have hawait := await_of_open hopen key digest signature
      cases hcheck : checkInputs (key.bind s.ring.point?) (digest.look s.buffers)
        (signature.look s.buffers) with
      | error failure =>
          rw [hcheck] at hawait
          exact .inl ⟨failure, hawait⟩
      | ok inputs =>
          obtain ⟨Q, d, b⟩ := inputs
          rw [hcheck] at hawait
          dsimp only at hawait
          by_cases haccepts : s.accepts ver = true
          · rw [if_pos haccepts] at hawait
            exact .inr ⟨ver, Q, d, b, rfl, haccepts, rfl, hawait⟩
          · rw [if_neg haccepts] at hawait
            exact .inl ⟨ver.refusal, hawait⟩

theorem step_await (v : Nat) (key : Option Nat) (digest signature : Held) :
    Step backend s (.await v key digest signature) (s.await v key digest signature).2 := by
  rcases s.await_eq_or v key digest signature with
    ⟨failure, hawait⟩ | ⟨ver, Q, d, b, hopen, haccepts, hcheck, hawait⟩
  · rw [hawait]
    refine .still ⟨?_, ?_, not_finishes rfl, not_drains rfl⟩
    · rintro w q entry (_ | h)
      rw [hawait] at h
      cases h
    · intro w q entry h
      cases h
  · rw [hawait]
    exact .awaited hopen hcheck haccepts

/-! ## Going on -/

theorem step_cancel (r : Nat) : Step backend s (.cancel r) (s.cancel r).2 := by
  rw [cancel]
  split
  · exact .still (still_of_quiet rfl rfl rfl)
  next request hr =>
  split
  · next job hfuture => exact .cancelled hr hfuture
  · exact .still (still_of_quiet rfl rfl rfl)

theorem step_work (r : Nat) : Step backend s (.work r) (s.work backend r) := by
  rw [work]
  split
  · exact .still (still_of_quiet rfl rfl rfl)
  next request hr =>
  split
  · next job hfuture => exact .answered hr hfuture
  · exact .still (still_of_quiet rfl rfl rfl)

theorem step_report (r : Nat) : Step backend s (.report r) (s.report r) := by
  rw [report]
  split
  · exact .still (still_of_quiet rfl rfl rfl)
  next request hr =>
  split
  · next v error result horigin hopen htold =>
    have hstep : Step backend s (.report r) _ := .reported hr horigin hopen htold
    dsimp only
    split
    · next hcallback =>
      rw [if_pos hcallback] at hstep
      exact hstep
    · next hcallback =>
      rw [if_neg hcallback, List.append_nil] at hstep
      exact hstep
  · exact .still (still_of_quiet rfl rfl rfl)

theorem step_finish (r : Nat) : Step backend s (.finish r) (s.finish r) := by
  by_cases hfinishes : Finishes s (.finish r) r
  · cases hfinishes with
    | @returned _ v _ _ hr horigin hcompleted hv =>
      have hfinish : s.finish r = s.drop v r := by
        simp only [finish, hr, horigin, hcompleted]
      rw [hfinish]
      exact .finished hr horigin hcompleted (by rw [hv]; rfl)
  · -- Unless it finishes, it is another kind of request, or has no verifier to be dropped by.
    have hsame : s.finish r = s := by
      rw [finish]
      split
      · rfl
      next request hr =>
      split
      · next v horigin hcompleted =>
        cases hv : s.verifier? v with
        | none => exact drop_of_no_verifier hv r
        | some ver => exact absurd (.returned hr horigin hcompleted hv) hfinishes
      · rfl
    rw [hsame]
    refine .still ⟨not_enters rfl, not_strands rfl, ?_, not_drains rfl⟩
    intro q h
    cases h with
    | returned hr horigin hcompleted hv =>
      exact hfinishes (.returned hr horigin hcompleted hv)

/-- A coroutine goes on once the future of its request is done, as long as that is pending. -/
theorem resume_eq_or (s : State P) (r : Nat) : s.resume r = (none, s)
    ∨ ∃ v request outcome, s.request? r = some request ∧ request.origin = .awaited v
      ∧ request.future.bind handed = some outcome ∧ s.IsPending v r
      ∧ s.resume r = (some outcome, s.drop v r) := by
  cases hr : s.request? r with
  | none => exact .inl (by rw [resume, hr])
  | some request =>
      cases horigin : request.origin with
      | client => exact .inl (by simp only [resume, hr, horigin])
      | submitted v => exact .inl (by simp only [resume, hr, horigin])
      | stranded v => exact .inl (by simp only [resume, hr, horigin])
      | awaited v =>
          cases hhanded : request.future.bind handed with
          | none => exact .inl (by simp only [resume, hr, horigin, hhanded])
          | some outcome =>
              have hresume : s.resume r = if (s.pendingOf v).contains r then
                  (some outcome, s.drop v r) else (none, s) := by
                simp only [resume, hr, horigin, hhanded, contains_pendingOf]
              by_cases hpending : (s.pendingOf v).contains r = true
              · rw [if_pos hpending] at hresume
                refine .inr ⟨v, request, outcome, rfl, horigin, hhanded, ?_, hresume⟩
                rw [isPending_iff]
                exact List.contains_iff_mem.mp hpending
              · rw [if_neg hpending] at hresume
                exact .inl hresume

theorem step_resume (r : Nat) : Step backend s (.resume r) (s.resume r).2 := by
  rcases s.resume_eq_or r with
    hstill | ⟨v, request, outcome, hr, horigin, hhanded, hpending, hresume⟩
  · rw [hstill]
    refine .still ⟨not_enters rfl, not_strands rfl, ?_, not_drains rfl⟩
    intro q h
    cases h with
    | resumed h =>
      rw [hstill] at h
      cases h
  · rw [hresume]
    exact .resumed hr horigin hhanded hpending

/-! ## Verifiers and drains -/

theorem step_openVerifier (workers : Option Int) (pool : Option Nat) :
    Step backend s (.openVerifier workers pool) (s.openVerifier workers pool).2 := by
  cases workers with
  | none => exact .borrowed pool
  | some count =>
      cases pool with
      | some pool => exact .still (still_of_quiet rfl rfl rfl)
      | none =>
          rw [openVerifier]
          split
          · exact .still (still_of_quiet rfl rfl rfl)
          · exact .staffed count

/-- A drain that may not end yet changes nothing. -/
theorem still_of_not_drained (h : ¬ s.isDrained v = true) :
    Still s (.drained v) ∧ Still s (.leave v) := by
  refine ⟨⟨not_enters rfl, not_strands rfl, not_finishes rfl, ?_⟩,
    not_enters rfl, not_strands rfl, not_finishes rfl, ?_⟩
  · rintro w (hdrained | _)
    exact h hdrained
  · rintro w (_ | hdrained)
    exact h hdrained

theorem step_drained (v : Nat) : Step backend s (.drained v) (s.drained v) := by
  rw [drained_eq]
  split
  · next h => exact .drained h
  · next h => exact .still (still_of_not_drained h).1

theorem step_leave (v : Nat) : Step backend s (.leave v) (s.leave v) := by
  rw [leave_eq]
  split
  · next h => exact .left h
  · next h => exact .still (still_of_not_drained h).2

/-- There is no other way for a step to go. -/
theorem step (backend : Backend P) (s : State P) (e : Event) :
    Step backend s e (s.apply backend e) := by
  cases e with
  | keyOp op => exact .aside _ s.buffers (still_of_quiet rfl rfl rfl)
  | addBuffer data => exact .aside s.ring _ (still_of_quiet rfl rfl rfl)
  | overwrite buffer data => exact .aside s.ring _ (still_of_quiet rfl rfl rfl)
  | addPool accepting => exact .lent accepting
  | shutDefault => exact .shutDefault
  | openVerifier workers pool => exact step_openVerifier workers pool
  | close v => exact .closed v
  | submit v key digest signature callback loop =>
      exact step_submit v key digest signature callback loop
  | await v key digest signature => exact step_await v key digest signature
  | cancel r => exact step_cancel r
  | work r => exact step_work r
  | report r => exact step_report r
  | finish r => exact step_finish r
  | resume r => exact step_resume r
  | drained v => exact step_drained v
  | leave v => exact step_leave v

end SecpKey.Verifier.State
