/-
  SecpKey.Proofs.Verifier.Fate

  What becomes of a request depends on its own events alone: on its cancellation, its
  answer, its report, its finish and its resumption, in their order.  Any other step leaves
  the fate of the request as it was (`SameFate.aside`), the end of a drain included if it has a
  future, and one of its own does the same to it in any two states in which its fate is the same
  (`SameFate.act`).  So two runs that agree on these events agree on the request
  (`SameFate.run`), whatever else they do.
-/
import SecpKey.Proofs.Verifier.Pools

namespace SecpKey.Verifier.State

variable {P : Type} {backend : Backend P} {s t u : State P} {e : Event} {v r : Nat}
  {request : Request P}

/-! ## Fates -/

/-- Whether the event is one of request `r`. -/
def concerns (r : Nat) : Event → Bool
  | .cancel q => q == r
  | .work q => q == r
  | .report q => q == r
  | .finish q => q == r
  | .resume q => q == r
  | _ => false

/-- What a callback is called with. -/
def said (call : Call) : Option Failure × Option VerifyResult := (call.error, call.result)

/-- The same has become of request `r` in both states: it holds the same, it is pending with
the same verifiers, and its callback was called with the same. -/
structure SameFate (r : Nat) (s t : State P) : Prop where
  request : s.request? r = t.request? r
  pending : ∀ w, s.IsPending w r ↔ t.IsPending w r
  calls : (s.callsOf r).map said = (t.callsOf r).map said

namespace SameFate

theorem refl (r : Nat) (s : State P) : SameFate r s s := ⟨rfl, fun _ => Iff.rfl, rfl⟩

theorem symm (h : SameFate r s t) : SameFate r t s :=
  ⟨h.request.symm, fun w => (h.pending w).symm, h.calls.symm⟩

theorem trans (h : SameFate r s t) (h' : SameFate r t u) : SameFate r s u :=
  ⟨h.request.trans h'.request, fun w => (h.pending w).trans (h'.pending w),
    h.calls.trans h'.calls⟩

/-! ## Events of others -/

theorem of_made {made : Request P} (hr : s.request? r = some request) (h : Made s t v made) :
    SameFate r s t := by
  refine ⟨hr.trans (h.request?_of_some hr).symm, fun w => ?_, by rw [callsOf_of_calls h.calls]⟩
  rw [h.isPending]
  simp [Nat.ne_of_lt (lt_length_of_request? hr)]

theorem of_changed {q : Nat} {changed : Request P} (hne : q ≠ r)
    (h : Changed s t q request changed) (hpending : ∀ w, t.IsPending w r ↔ s.IsPending w r)
    (hcalls : t.callsOf r = s.callsOf r) : SameFate r s t := by
  refine ⟨?_, fun w => (hpending w).symm, by rw [hcalls]⟩
  rw [h.requests, if_neg hne.symm]

theorem of_dropped {q : Nat} (hne : q ≠ r) (h : Dropped s t v q request) : SameFate r s t := by
  refine of_changed hne h.toChanged (fun w => ?_) (callsOf_of_calls h.calls r)
  rw [h.isPending]
  simp [hne.symm]

/-- An event of others leaves the fate of a request as it was. -/
theorem aside (hr : s.hasFuture r = true) (h : Effect backend s e t)
    (hother : concerns r e = false) : SameFate r s t := by
  obtain ⟨request, hfound⟩ := exists_request_of_hasFuture hr
  cases h with
  | aside h =>
      exact ⟨(h.request? r).symm, fun w => (isPending_congr (h.pending w) r).symm,
        by rw [callsOf_of_calls h.calls]⟩
  | submitted _ _ h => exact of_made hfound h
  | stranded h => exact of_made hfound h
  | awaited h => exact of_made hfound h
  | @cancelled _ q _ _ _ h hcalls hpending =>
      have hne : q ≠ r := by simpa [concerns] using hother
      exact of_changed hne h (fun w => isPending_congr (hpending w) r) (callsOf_of_calls hcalls r)
  | @answered _ q _ _ _ h hcalls hpending =>
      have hne : q ≠ r := by simpa [concerns] using hother
      exact of_changed hne h (fun w => isPending_congr (hpending w) r) (callsOf_of_calls hcalls r)
  | @reported _ q _ _ _ _ _ _ _ h hcalls hpending =>
      have hne : q ≠ r := by simpa [concerns] using hother
      refine of_changed hne h (fun w => isPending_congr (hpending w) r) ?_
      -- The call that is added is one of another request.
      rw [callsOf_append s _ r hcalls]
      split
      · simp [hne]
      · simp
  | @finished _ q _ _ _ _ h =>
      have hne : q ≠ r := by simpa [concerns] using hother
      exact of_dropped hne h
  | @resumed _ q _ _ _ _ _ h =>
      have hne : q ≠ r := by simpa [concerns] using hother
      exact of_dropped hne h
  | discarded h =>
      -- Whoever has a future is not dropped.
      obtain ⟨hsame, hpending⟩ := h.spares hr
      exact ⟨hsame.symm, fun w => (hpending w).symm, by rw [callsOf_of_calls h.calls]⟩

end SameFate

/-! ## Jobs and hosts -/

/-- The job of a request that is scheduled does not depend on what the buffers hold. -/
def Steady (backend : Backend P) (request : Request P) : Prop :=
  ∀ job, request.future = some (.scheduled job) →
    ∀ buffers buffers', job.run backend buffers = job.run backend buffers'

theorem Steady.succeeds {after : Request P} (h : Steady backend request)
    (hnext : Succeeds request after) : Steady backend after := by
  intro job hjob
  rcases hnext.future with hsame | hother
  · exact h job (hsame.symm.trans hjob)
  · exact absurd hjob (hother job)

/-- A submission is scheduled with copies of its inputs. -/
theorem steady_submission (s : State P) (ver : Verifier) (v : Nat) (key : Option Nat)
    (digest signature : Held) (callback : Bool) (loop : EventLoop) :
    Steady backend (s.submission ver v key digest signature callback loop).2 := by
  set request : Request P := .fresh (.submitted v) key digest signature callback
  intro job hjob
  have hfuture : s.futureOf? ver loop (request.prepare s.ring.point? s.buffers).1
      (request.prepare s.ring.point? s.buffers).2 = some (.scheduled job) := hjob
  have hprepare := request.prepare_fst s.ring.point? s.buffers
  cases hcheck : checkInputs (request.key.bind s.ring.point?) (request.digest.look s.buffers)
    (request.signature.look s.buffers) with
  | error e =>
      rw [hcheck] at hprepare
      rw [hprepare, Except.map, futureOf?] at hfuture
      split at hfuture
      · cases hfuture
      · cases hfuture
  | ok inputs =>
      obtain ⟨Q, d, b⟩ := inputs
      rw [Request.prepare_of_ok hcheck] at hfuture
      dsimp only [futureOf?] at hfuture
      split at hfuture
      · cases hfuture
      · split at hfuture
        · obtain rfl := Future.scheduled.inj (Option.some.inj hfuture)
          exact fun _ _ => rfl
        · cases hfuture

theorem steady_awaiting (v : Nat) (key : Option Nat) (Q : P) (digest signature : Bytes) :
    Steady backend (awaiting v key Q digest signature) := by
  intro job hjob
  obtain rfl := Future.scheduled.inj (Option.some.inj hjob)
  exact fun _ _ => rfl

/-- What the fate of a request rests on. -/
structure Grounded (backend : Backend P) (s : State P) : Prop where
  steady : ∀ {r request}, s.request? r = some request → Steady backend request
  /-- The verifier that somebody waits for exists. -/
  host : ∀ {r v request}, s.request? r = some request → request.origin.host? = some v →
    (s.verifier? v).isSome = true

namespace Grounded

theorem empty : Grounded backend (.empty : State P) where
  steady h := nomatch h
  host h := nomatch h

section

variable (hg : Grounded backend s)
  (hkept : ∀ {w}, (s.verifier? w).isSome = true → (t.verifier? w).isSome = true)

include hg hkept

theorem made {made : Request P} (h : Made s t v made) (hsteady : Steady backend made)
    (hhost : ∀ {w}, made.origin.host? = some w → w = v) : Grounded backend t where
  steady {q x} hx := by
    rw [h.request?] at hx
    split at hx
    · obtain rfl := Option.some.inj hx
      exact hsteady
    · exact hg.steady hx
  host {q w x} hx hw := by
    rw [h.request?] at hx
    split at hx
    · obtain rfl := Option.some.inj hx
      -- It is pending with that verifier.
      obtain ⟨ver, hver, -⟩ := h.isPending.mpr (.inr ⟨hhost hw, rfl⟩)
      rw [hver]
      rfl
    · exact hkept (hg.host hx hw)

theorem changed {changed : Request P} (h : Changed s t r request changed)
    (hnext : Succeeds request changed) : Grounded backend t where
  steady {q x} hx := by
    rw [h.requests] at hx
    split at hx
    · obtain rfl := Option.some.inj hx
      exact (hg.steady h.found).succeeds hnext
    · exact hg.steady hx
  host {q w x} hx hw := by
    rw [h.requests] at hx
    split at hx
    · obtain rfl := Option.some.inj hx
      rw [hnext.origin] at hw
      exact hkept (hg.host h.found hw)
    · exact hkept (hg.host hx hw)

theorem discarded (h : Discarded s t v) : Grounded backend t := by
  have hbefore : ∀ {q x}, t.request? q = some x →
      ∃ before, s.request? q = some before ∧ Succeeds before x := by
    intro q x hx
    rw [h.requests] at hx
    split at hx
    · obtain ⟨before, hbefore, rfl⟩ := Option.map_eq_some_iff.mp hx
      exact ⟨before, hbefore, succeeds_release before⟩
    · exact ⟨x, hx, .refl x⟩
  constructor
  · intro q x hx
    obtain ⟨before, hfound, hnext⟩ := hbefore hx
    exact (hg.steady hfound).succeeds hnext
  · intro q w x hx hw
    obtain ⟨before, hfound, hnext⟩ := hbefore hx
    rw [hnext.origin] at hw
    exact hkept (hg.host hfound hw)

theorem effect (h : Effect backend s e t) : Grounded backend t := by
  cases h with
  | aside h =>
      exact ⟨fun hr => hg.steady ((h.request? _).symm.trans hr),
        fun hr hw => hkept (hg.host ((h.request? _).symm.trans hr) hw)⟩
  | submitted _ _ h =>
      refine hg.made hkept h (steady_submission _ _ _ _ _ _ _ _) fun hw => ?_
      rw [(s.submission_keeps _ _ _ _ _ _ _).1] at hw
      exact (Option.some.inj hw).symm
  | stranded h => exact hg.made hkept h (steady_submission s _ _ _ _ _ _ _) fun hw => nomatch hw
  | awaited h =>
      exact hg.made hkept h (steady_awaiting _ _ _ _ _) fun hw => (Option.some.inj hw).symm
  | cancelled _ h _ _ => exact hg.changed hkept h ⟨rfl, id, .inr fun _ h => nomatch h⟩
  | answered _ h _ _ => exact hg.changed hkept h ⟨rfl, id, .inr fun _ h => nomatch h⟩
  | reported _ _ _ h _ _ => exact hg.changed hkept h ⟨rfl, fun _ => rfl, .inl rfl⟩
  | finished _ _ h => exact hg.changed hkept h.toChanged (succeeds_release _)
  | resumed _ _ h => exact hg.changed hkept h.toChanged (succeeds_release _)
  | discarded h => exact hg.discarded hkept h

end

theorem step (hg : Grounded backend s) (e : Event) : Grounded backend (s.apply backend e) := by
  refine hg.effect (fun hw => ?_) (State.effect backend s e)
  rw [← isSome_terms?] at hw ⊢
  exact isSome_terms?_step hw (shift backend s e)

theorem run (hg : Grounded backend s) (later : List Event) :
    Grounded backend (s.run backend later) := by
  induction later generalizing s with
  | nil => exact hg
  | cons e rest ih => exact ih (hg.step e)

end Grounded

/-! ## Events of a request itself -/

namespace SameFate

theorem setRequest (h : SameFate r s t) (hr : s.request? r = some request)
    (changed : Request P) : SameFate r (s.setRequest r changed) (t.setRequest r changed) where
  request := by
    rw [request?_setRequest hr, request?_setRequest (h.request.symm.trans hr), if_pos rfl,
      if_pos rfl]
  pending := h.pending
  calls := h.calls

theorem drop (h : SameFate r s t) (hr : s.request? r = some request)
    (hs : (s.verifier? v).isSome = true) (ht : (t.verifier? v).isSome = true) :
    SameFate r (s.drop v r) (t.drop v r) := by
  have hleft := dropped_drop hs hr
  have hright := dropped_drop ht (h.request.symm.trans hr)
  refine ⟨?_, fun w => ?_, ?_⟩
  · rw [hleft.requests, hright.requests, if_pos rfl, if_pos rfl]
  · rw [hleft.isPending, hright.isPending, h.pending]
  · rw [callsOf_of_calls hleft.calls, callsOf_of_calls hright.calls]
    exact h.calls

theorem addCall (h : SameFate r s t) (error : Option Failure) (result : Option VerifyResult)
    (count count' : Nat) :
    SameFate r { s with calls := s.calls ++ [⟨r, error, result, count⟩] }
      { t with calls := t.calls ++ [⟨r, error, result, count'⟩] } where
  request := h.request
  pending := h.pending
  calls := by
    have happend : ∀ (u : State P) (count : Nat),
        (({ u with calls := u.calls ++ [⟨r, error, result, count⟩] } : State P).callsOf r).map said
          = (u.callsOf r).map said ++ [(error, result)] := by
      intro u count
      simp [callsOf, said]
    rw [happend, happend, h.calls]

theorem contains_eq (h : SameFate r s t) (w : Nat) :
    ((s.verifier? w).map (·.pending.contains r)).getD false
      = ((t.verifier? w).map (·.pending.contains r)).getD false := by
  rw [contains_pendingOf, contains_pendingOf, Bool.eq_iff_iff, List.contains_iff_mem,
    List.contains_iff_mem, ← isPending_iff, ← isPending_iff]
  exact h.pending w

/-- A coroutine is handed the same where the fate of its request is the same. -/
theorem resume_fst (h : SameFate r s t) : (s.resume r).1 = (t.resume r).1 := by
  rw [State.resume, State.resume, ← h.request]
  split
  · rfl
  split
  · rw [h.contains_eq]
    split
    · rfl
    · rfl
  · rfl

theorem cancel (h : SameFate r s t) : SameFate r (s.cancel r).2 (t.cancel r).2 := by
  rw [State.cancel, State.cancel, ← h.request]
  split
  · exact h
  next request hr =>
  split
  · exact h.setRequest hr _
  · exact h

theorem work (h : SameFate r s t) (hs : Grounded backend s) :
    SameFate r (s.work backend r) (t.work backend r) := by
  rw [State.work, State.work, ← h.request]
  split
  · exact h
  next request hr =>
  split
  · next job hjob =>
    -- The buffers may differ, but the job was given copies.
    rw [hs.steady hr job hjob t.buffers s.buffers]
    exact h.setRequest hr _
  · exact h

theorem report (h : SameFate r s t) : SameFate r (s.report r) (t.report r) := by
  rw [State.report, State.report, ← h.request]
  split
  · exact h
  next request hr =>
  split
  · dsimp only
    split
    · exact (h.setRequest hr _).addCall _ _ _ _
    · exact h.setRequest hr _
  · exact h

/-- Wherever the request is dropped, its verifier is there in both states. -/
theorem drop_of_host (h : SameFate r s t) (hs : Grounded backend s) (ht : Grounded backend t)
    (hr : s.request? r = some request) (hhost : request.origin.host? = some v) :
    SameFate r (s.drop v r) (t.drop v r) :=
  h.drop hr (hs.host hr hhost) (ht.host (h.request.symm.trans hr) hhost)

theorem finish (h : SameFate r s t) (hs : Grounded backend s) (ht : Grounded backend t) :
    SameFate r (s.finish r) (t.finish r) := by
  rw [State.finish, State.finish, ← h.request]
  split
  · exact h
  next request hr =>
  split
  · next horigin _ => exact h.drop_of_host hs ht hr (host?_of_submitted horigin)
  · exact h

theorem resume (h : SameFate r s t) (hs : Grounded backend s) (ht : Grounded backend t) :
    SameFate r (s.resume r).2 (t.resume r).2 := by
  rw [State.resume, State.resume, ← h.request]
  split
  · exact h
  next request hr =>
  split
  · next v outcome horigin _ =>
    rw [h.contains_eq]
    split
    · exact h.drop_of_host hs ht hr (host?_of_awaited horigin)
    · exact h
  · exact h

/-- An event of the request itself does the same to it wherever its fate is the same. -/
theorem act (h : SameFate r s t) (hs : Grounded backend s) (ht : Grounded backend t)
    (hown : concerns r e = true) : SameFate r (s.apply backend e) (t.apply backend e) := by
  cases e with
  | cancel q =>
      obtain rfl : q = r := by simpa [concerns] using hown
      exact h.cancel
  | work q =>
      obtain rfl : q = r := by simpa [concerns] using hown
      exact h.work hs
  | report q =>
      obtain rfl : q = r := by simpa [concerns] using hown
      exact h.report
  | finish q =>
      obtain rfl : q = r := by simpa [concerns] using hown
      exact h.finish hs ht
  | resume q =>
      obtain rfl : q = r := by simpa [concerns] using hown
      exact h.resume hs ht
  | _ => cases hown

end SameFate

/-! ## Runs -/

namespace SameFate

/-- Of a run, only the events of the request count. -/
theorem run_filter (h : SameFate r s t) (hs : Grounded backend s) (ht : Grounded backend t)
    (hr : s.hasFuture r = true) (later : List Event) :
    SameFate r (s.run backend later) (t.run backend (later.filter (concerns r))) := by
  induction later generalizing s t with
  | nil => exact h
  | cons e rest ih =>
      have heffect := effect backend s e
      have hr' := heffect.hasFuture hr
      cases hown : concerns r e with
      | true =>
          rw [List.filter_cons_of_pos hown]
          exact ih (h.act hs ht hown) (hs.step e) (ht.step e) hr'
      | false =>
          -- The run goes on, and the filtered one stands still.
          have hnext := (SameFate.aside hr heffect hown).symm.trans h
          rw [List.filter_cons_of_neg (by simp [hown])]
          exact ih hnext (hs.step e) ht hr'

/-- Runs that agree on the events of a request agree on its fate. -/
theorem run (h : SameFate r s t) (hs : Grounded backend s) (ht : Grounded backend t)
    (hr : s.hasFuture r = true) {later later' : List Event}
    (hsame : later.filter (concerns r) = later'.filter (concerns r)) :
    SameFate r (s.run backend later) (t.run backend later') := by
  -- Both end like the events of the request alone, from `t`.
  have hr' : t.hasFuture r = true := by
    rw [hasFuture, ← h.request]
    exact hr
  have hleft := h.run_filter hs ht hr later
  have hright := (SameFate.refl r t).run_filter ht ht hr' later'
  rw [hsame] at hleft
  exact hleft.trans hright.symm

end SameFate

theorem grounded_run (events : List Event) : Grounded backend (run backend .empty events) :=
  Grounded.empty.run events

end SecpKey.Verifier.State
