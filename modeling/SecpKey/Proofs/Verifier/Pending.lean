/-
  SecpKey.Proofs.Verifier.Pending

  What one step does to pending sets and to what requests hold, read off the ways it can go.  A
  verification comes to a pending set when it is handed over (`Enters`), and also when its
  submission fails too late (`Strands`), with everything it was handed (`Pinned`).  It leaves with
  nothing (`Cleared`): when its completion finishes, or, without a future, when a drain ends.
  `Turn` has a rule for each of these and one for all other steps.
-/
import SecpKey.Proofs.Verifier.Effect

namespace SecpKey.Verifier.State

variable {P : Type} {backend : Backend P} {s t : State P} {e : Event} {v w r q : Nat}
  {ver : Verifier} {key : Option Nat} {digest signature : Held} {callback : Bool}
  {loop : EventLoop} {request : Request P}

/-! ## What a request holds -/

/-- The request holds what it held, and has a future exactly if it had one. -/
structure Continues (before after : Request P) : Prop where
  origin : after.origin = before.origin
  key : after.key = before.key
  digest : after.digest = before.digest
  signature : after.signature = before.signature
  callback : after.callback = before.callback
  publicKey : after.publicKey = before.publicKey
  future : after.future.isSome = before.future.isSome

theorem Continues.refl (request : Request P) : Continues request request :=
  ⟨rfl, rfl, rfl, rfl, rfl, rfl, rfl⟩

/-- The request holds neither a key nor a point, no inputs and no callback. -/
structure Cleared (request : Request P) : Prop where
  key : request.key = none
  publicKey : request.publicKey = none
  digest : request.digest = .value .absent
  signature : request.signature = .value .absent
  callback : request.callback = false

theorem cleared_release (request : Request P) : Cleared request.release :=
  ⟨rfl, rfl, rfl, rfl, rfl⟩

theorem Cleared.continues {before after : Request P} (hc : Cleared before)
    (h : Continues before after) : Cleared after :=
  ⟨h.key.trans hc.key, h.publicKey.trans hc.publicKey, h.digest.trans hc.digest,
    h.signature.trans hc.signature, h.callback.trans hc.callback⟩

/-- The inputs, checked in the state in which they are handed over. -/
def Entry.checked (entry : Entry P) : Except Failure (P × Bytes × Bytes) :=
  checkInputs (entry.key.bind entry.state.ring.point?) (entry.digest.look entry.state.buffers)
    (entry.signature.look entry.state.buffers)

/-- The request holds the key and the callback that it was handed, and the inputs, which are
either the ones it was handed or copies of them.  If it is prepared, it holds copies and the
public point of the moment. -/
structure Pinned (entry : Entry P) (request : Request P) : Prop where
  origin : request.origin = entry.origin
  key : request.key = entry.key
  callback : request.callback = entry.callback
  digest : request.digest = entry.digest
    ∨ request.digest = .value (entry.digest.look entry.state.buffers)
  signature : request.signature = entry.signature
    ∨ request.signature = .value (entry.signature.look entry.state.buffers)
  prepared : ∀ Q digest signature, entry.checked = .ok (Q, digest, signature) →
    request.publicKey = some Q ∧ request.digest = .value (.bytes digest)
      ∧ request.signature = .value (.bytes signature)

theorem Pinned.continues {entry : Entry P} {before after : Request P} (hp : Pinned entry before)
    (h : Continues before after) : Pinned entry after := by
  constructor
  case origin =>
    exact h.origin.trans hp.origin
  case key =>
    exact h.key.trans hp.key
  case callback =>
    exact h.callback.trans hp.callback
  case digest =>
    rw [h.digest]
    exact hp.digest
  case signature =>
    rw [h.signature]
    exact hp.signature
  case prepared =>
    rw [h.publicKey, h.digest, h.signature]
    exact hp.prepared

/-- Preparing a request keeps what it was handed. -/
theorem pinned_prepare (entry : Entry P) :
    Pinned entry ((Request.fresh entry.origin entry.key entry.digest entry.signature
      entry.callback).prepare entry.state.ring.point? entry.state.buffers).2 := by
  have hchecked : entry.checked = checkInputs (entry.key.bind entry.state.ring.point?)
    (entry.digest.look entry.state.buffers) (entry.signature.look entry.state.buffers) := rfl
  simp only [Request.prepare, Request.fresh]
  cases hpoint : entry.key.bind entry.state.ring.point? with
  | none =>
      refine ⟨rfl, rfl, rfl, .inl rfl, .inl rfl, ?_⟩
      intro Q d b hok
      rw [hchecked, hpoint] at hok
      cases hok
  | some point =>
      rw [hpoint] at hchecked
      simp only [checkInputs] at hchecked
      cases hdigest : ensureDigest (entry.digest.look entry.state.buffers) with
      | error e =>
          refine ⟨rfl, rfl, rfl, .inl rfl, .inl rfl, ?_⟩
          intro Q d b hok
          rw [hchecked, hdigest] at hok
          cases hok
      | ok d =>
          -- The digest is copied now, whatever becomes of the signature.
          have hcopy := (ensureDigest_eq_ok_iff.mp hdigest).1
          cases hsignature : ensureSignature (entry.signature.look entry.state.buffers) with
          | error e =>
              refine ⟨rfl, rfl, rfl, .inr (by rw [hcopy]), .inl rfl, ?_⟩
              intro Q d b hok
              rw [hchecked, hdigest, hsignature] at hok
              cases hok
          | ok b =>
              have hcopy' := ensureSignature_eq_ok_iff.mp hsignature
              refine ⟨rfl, rfl, rfl, .inr (by rw [hcopy]), .inr (by rw [hcopy']), ?_⟩
              intro Q d' b' hok
              rw [hchecked, hdigest, hsignature] at hok
              cases hok
              exact ⟨rfl, rfl, rfl⟩

/-- So does giving it a future. -/
theorem Pinned.withFuture {entry : Entry P} (hp : Pinned entry request)
    (future : Option (Future P)) : Pinned entry { request with future := future } :=
  ⟨hp.origin, hp.key, hp.callback, hp.digest, hp.signature, hp.prepared⟩

/-- A submission that is left behind keeps what it was handed. -/
theorem Pinned.strand {entry : Entry P} (hp : Pinned entry request) (v : Nat) :
    Pinned { entry with origin := .stranded v } (request.strand v) :=
  ⟨rfl, hp.key, hp.callback, hp.digest, hp.signature, hp.prepared⟩

/-- A submission holds what it was handed, whatever comes of it. -/
theorem pinned_submission (s : State P) (ver : Verifier) (v : Nat) (key : Option Nat)
    (digest signature : Held) (callback : Bool) (loop : EventLoop) :
    Pinned ⟨.submitted v, key, digest, signature, callback, s⟩
      (s.submission ver v key digest signature callback loop).2 :=
  (pinned_prepare ⟨.submitted v, key, digest, signature, callback, s⟩).withFuture _

theorem pinned_awaiting {Q : P} {d b : Bytes}
    (hchecked : checkInputs (key.bind s.ring.point?) (digest.look s.buffers)
      (signature.look s.buffers) = .ok (Q, d, b)) :
    Pinned ⟨.awaited v, key, digest, signature, false, s⟩ (awaiting v key Q d b) := by
  have hpinned := pinned_prepare ⟨.awaited v, key, digest, signature, false, s⟩
  have hprepare : (Request.fresh (.awaited v) key digest signature false).prepare
      s.ring.point? s.buffers = _ := Request.prepare_of_ok hchecked
  rw [hprepare] at hpinned
  exact hpinned.withFuture _

/-! ## Turns -/

/-- Nobody comes and nobody goes, and everybody holds what they held. -/
structure Keeps (s : State P) (e : Event) (t : State P) : Prop extends Still s e where
  pending : ∀ w, t.pendingOf w = s.pendingOf w
  requests : ∀ q, Option.Rel Continues (s.request? q) (t.request? q)

/-- One verification comes, and becomes the next request. -/
structure Arrives (s : State P) (e : Event) (t : State P) (v : Nat) (entry : Entry P)
    (request : Request P) : Prop extends Made s t v request where
  comes : ∀ w q other, Enters s e w q other ∨ Strands s e w q other
    ↔ w = v ∧ q = s.requests.length ∧ other = entry
  finishes : ∀ q, ¬ Finishes s e q
  drains : ∀ w, ¬ Drains s e w
  pinned : Pinned entry request

/-- The completion of one request finishes, and the request is released. -/
structure Leaves (s : State P) (e : Event) (t : State P) (v r : Nat) (request : Request P) :
    Prop extends Dropped s t v r request where
  enters : ∀ w q entry, ¬ Enters s e w q entry
  strands : ∀ w q entry, ¬ Strands s e w q entry
  finishes : ∀ q, Finishes s e q ↔ q = r
  drains : ∀ w, ¬ Drains s e w
  host : request.origin.host? = some v

/-- A drain of one verifier ends. -/
structure Empties (s : State P) (e : Event) (t : State P) (v : Nat) : Prop
    extends Discarded s t v where
  enters : ∀ w q entry, ¬ Enters s e w q entry
  strands : ∀ w q entry, ¬ Strands s e w q entry
  finishes : ∀ q, ¬ Finishes s e q
  drains : ∀ w, Drains s e w ↔ w = v

/-- What a step can do to pending sets and to what requests hold. -/
inductive Turn (s : State P) (e : Event) (t : State P) : Prop
  | kept (h : Keeps s e t)
  | arrived {v : Nat} {entry : Entry P} {request : Request P} (h : Arrives s e t v entry request)
  | left {v r : Nat} {request : Request P} (h : Leaves s e t v r request)
  | emptied {v : Nat} (h : Empties s e t v)

theorem rel_continues_of_eq (h : t.request? q = s.request? q) :
    Option.Rel Continues (s.request? q) (t.request? q) := by
  rw [h]
  cases s.request? q with
  | none => exact .none
  | some request => exact .some (.refl request)

/-- Requests are as they were. -/
theorem keeps_of_same (hstill : Still s e) (h : Same s t) : Keeps s e t where
  toStill := hstill
  pending := h.pending
  requests q := rel_continues_of_eq (h.request? q)

/-- One request has got on. -/
theorem keeps_of_changed {changed : Request P} (hstill : Still s e)
    (h : Changed s t r request changed) (hcontinues : Continues request changed)
    (hpending : ∀ w, t.pendingOf w = s.pendingOf w) : Keeps s e t where
  toStill := hstill
  pending := hpending
  requests q := by
    by_cases hq : q = r
    · rw [h.requests, if_pos hq, hq, h.found]
      exact .some hcontinues
    · exact rel_continues_of_eq (by rw [h.requests, if_neg hq])

theorem arrives_submit (hopen : s.openOne v = .ok ver)
    (hlate : late loop (s.submission ver v key digest signature callback loop).1 = none) :
    Arrives s (.submit v key digest signature callback loop)
      (s.enroll v (s.submission ver v key digest signature callback loop).2) v
      ⟨.submitted v, key, digest, signature, callback, s⟩
      (s.submission ver v key digest signature callback loop).2 where
  toMade := made_enroll (isSome_verifier?_of_openOne hopen) _
  comes w q other := by
    have hsubmit := submit_of_late_none hopen hlate
    constructor
    · rintro (h | h)
      · cases h with
        | submitted h =>
          rw [hsubmit] at h
          exact ⟨rfl, (Except.ok.inj h).symm, rfl⟩
      · cases h with
        | submitted _ h =>
          rw [hsubmit] at h
          cases h
    · rintro ⟨rfl, rfl, rfl⟩
      exact .inl (.submitted (by rw [hsubmit]))
  finishes := not_finishes rfl
  drains := not_drains rfl
  pinned := pinned_submission s ver v key digest signature callback loop

theorem arrives_stranded {failure : Failure} (hopen : s.openOne v = .ok ver)
    (hlate : late loop (s.submission ver v key digest signature callback loop).1
      = some failure) :
    Arrives s (.submit v key digest signature callback loop)
      (s.enroll v ((s.submission ver v key digest signature callback loop).2.strand v)) v
      ⟨.stranded v, key, digest, signature, callback, s⟩
      ((s.submission ver v key digest signature callback loop).2.strand v) where
  toMade := made_enroll (isSome_verifier?_of_openOne hopen) _
  comes w q other := by
    have hsubmit := submit_of_late_some hopen hlate
    constructor
    · rintro (h | h)
      · cases h with
        | submitted h =>
          rw [hsubmit] at h
          cases h
      · cases h with
        | submitted _ _ => exact ⟨rfl, rfl, rfl⟩
    · rintro ⟨rfl, rfl, rfl⟩
      exact .inr (.submitted hopen (by rw [hsubmit]))
  finishes := not_finishes rfl
  drains := not_drains rfl
  pinned := (pinned_submission s ver v key digest signature callback loop).strand v

theorem arrives_await {Q : P} {d b : Bytes} (hopen : s.openOne v = .ok ver)
    (hchecked : checkInputs (key.bind s.ring.point?) (digest.look s.buffers)
      (signature.look s.buffers) = .ok (Q, d, b)) (haccepts : s.accepts ver = true) :
    Arrives s (.await v key digest signature) (s.enroll v (awaiting v key Q d b)) v
      ⟨.awaited v, key, digest, signature, false, s⟩ (awaiting v key Q d b) where
  toMade := made_enroll (isSome_verifier?_of_openOne hopen) _
  comes w q other := by
    have hawait : s.await v key digest signature
        = (.ok s.requests.length, s.enroll v (awaiting v key Q d b)) := by
      rw [await_of_open hopen, hchecked]
      exact if_pos haccepts
    constructor
    · rintro (h | h)
      · cases h with
        | awaited h =>
          rw [hawait] at h
          exact ⟨rfl, (Except.ok.inj h).symm, rfl⟩
      · cases h
    · rintro ⟨rfl, rfl, rfl⟩
      exact .inl (.awaited (by rw [hawait]))
  finishes := not_finishes rfl
  drains := not_drains rfl
  pinned := pinned_awaiting hchecked

theorem leaves_finish (hr : s.request? r = some request) (horigin : request.origin = .submitted v)
    (hcompleted : request.completed = true) (hv : (s.verifier? v).isSome = true) :
    Leaves s (.finish r) (s.drop v r) v r request where
  toDropped := dropped_drop hv hr
  enters := not_enters rfl
  strands := not_strands rfl
  finishes q := by
    obtain ⟨ver, hv⟩ := Option.isSome_iff_exists.mp hv
    constructor
    · intro h
      cases h with
      | returned _ _ _ _ => rfl
    · rintro rfl
      exact .returned hr horigin hcompleted hv
  drains := not_drains rfl
  host := by rw [horigin]; rfl

theorem leaves_resume {outcome : Except Failure VerifyResult} (hr : s.request? r = some request)
    (horigin : request.origin = .awaited v) (hhanded : request.future.bind handed = some outcome)
    (hpending : s.IsPending v r) : Leaves s (.resume r) (s.drop v r) v r request where
  toDropped := by
    obtain ⟨ver, hv, -⟩ := hpending
    exact dropped_drop (by rw [hv]; rfl) hr
  enters := not_enters rfl
  strands := not_strands rfl
  finishes q := by
    constructor
    · intro h
      cases h with
      | resumed h => rfl
    · rintro rfl
      -- It goes on, since it is still pending.
      have hcontains : (s.pendingOf v).contains q = true :=
        List.contains_iff_mem.mpr (isPending_iff.mp hpending)
      have hanswer : (s.resume q).1 = some outcome := by
        simp only [resume, hr, horigin, hhanded, contains_pendingOf, hcontains, if_true]
      exact .resumed hanswer
  drains := not_drains rfl
  host := by rw [horigin]; rfl

theorem empties_drained (h : s.isDrained v = true) :
    Empties s (.drained v) (s.dropAll v (s.pendingOf v)) v where
  toDiscarded := discarded_dropAll h
  enters := not_enters rfl
  strands := not_strands rfl
  finishes := not_finishes rfl
  drains w := by
    constructor
    · intro hw
      cases hw with
      | drained _ => rfl
    · rintro rfl
      exact .drained h

theorem empties_leave (h : s.isDrained v = true) :
    Empties s (.leave v) ((s.dropAll v (s.pendingOf v)).close v) v where
  toDiscarded := (discarded_dropAll h).close v
  enters := not_enters rfl
  strands := not_strands rfl
  finishes := not_finishes rfl
  drains w := by
    constructor
    · intro hw
      cases hw with
      | left _ => rfl
    · rintro rfl
      exact .left h

/-- Nothing else happens in a step. -/
theorem Step.turn (h : Step backend s e t) : Turn s e t := by
  cases h with
  | aside ring buffers h => exact .kept (keeps_of_same h ⟨rfl, rfl, fun _ => rfl⟩)
  | lent accepting =>
      exact .kept (keeps_of_same (still_of_quiet rfl rfl rfl) ⟨rfl, rfl, fun _ => rfl⟩)
  | shutDefault =>
      exact .kept (keeps_of_same (still_of_quiet rfl rfl rfl) ⟨rfl, rfl, fun _ => rfl⟩)
  | borrowed pool =>
      exact .kept (keeps_of_same (still_of_quiet rfl rfl rfl)
        ⟨rfl, rfl, pendingOf_concat rfl rfl⟩)
  | staffed count =>
      exact .kept (keeps_of_same (still_of_quiet rfl rfl rfl)
        ⟨rfl, rfl, pendingOf_concat rfl rfl⟩)
  | closed v => exact .kept (keeps_of_same (still_of_quiet rfl rfl rfl) (same_close s v))
  | submitted hopen hlate => exact .arrived (arrives_submit hopen hlate)
  | stranded hopen hlate => exact .arrived (arrives_stranded hopen hlate)
  | awaited hopen hchecked haccepts => exact .arrived (arrives_await hopen hchecked haccepts)
  | cancelled hr hfuture =>
      exact .kept (keeps_of_changed (still_of_quiet rfl rfl rfl) (changed_setRequest hr)
        ⟨rfl, rfl, rfl, rfl, rfl, rfl, by rw [hfuture]; rfl⟩ fun _ => rfl)
  | answered hr hfuture =>
      exact .kept (keeps_of_changed (still_of_quiet rfl rfl rfl) (changed_setRequest hr)
        ⟨rfl, rfl, rfl, rfl, rfl, rfl, by rw [hfuture]; rfl⟩ fun _ => rfl)
  | reported hr _ _ _ =>
      exact .kept (keeps_of_changed (still_of_quiet rfl rfl rfl) ⟨hr, request?_setRequest hr _⟩
        ⟨rfl, rfl, rfl, rfl, rfl, rfl, rfl⟩ fun _ => rfl)
  | finished hr horigin hcompleted hv => exact .left (leaves_finish hr horigin hcompleted hv)
  | resumed hr horigin hhanded hpending => exact .left (leaves_resume hr horigin hhanded hpending)
  | drained h => exact .emptied (empties_drained h)
  | left h => exact .emptied (empties_leave h)

theorem turn (backend : Backend P) (s : State P) (e : Event) : Turn s e (s.apply backend e) :=
  (step backend s e).turn

end SecpKey.Verifier.State
