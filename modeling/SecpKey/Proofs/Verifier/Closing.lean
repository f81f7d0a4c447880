/-
  SecpKey.Proofs.Verifier.Closing

  Closing a verifier is permanent, loses nothing and is nobody else's business.  It commutes
  with whatever else happens (`apply_close`), so a run with a close in it ends like the run
  without, but for what is handed over to that verifier afterwards (`run_close`).  What was
  handed over before is completed (`Unfinished.isCompleted`), and comes to the same with and
  without the close.  `Closes` lists what follows for a run.
-/
import SecpKey.Proofs.Verifier.Accounts
import SecpKey.Proofs.Verifier.Fate
import SecpKey.Workspace.Loop

namespace SecpKey

/-! ## Waiting for the pool -/

namespace Workspace

variable {P : Type}

/-- The outcome of an action and the workspace after it. -/
def after {α : Type} (action : Act P α) (w : Workspace P) : Except Failure α × Workspace P :=
  Id.run (StateT.run (ExceptT.run action) w)

theorem after_bind {α β : Type} {x : Act P α} {f : α → Act P β} {w w' : Workspace P} {a : α}
    (h : after x w = (.ok a, w')) : after (x >>= f) w = after (f a) w' := by
  have hrun : StateT.run (ExceptT.run x) w = pure (.ok a, w') := h
  rw [after, ExceptT.run_bind, StateT.run_bind, hrun]
  rfl

theorem after_enqueueAll (answers : List Nat) (w : Workspace P) :
    after (do for r in answers do enqueue (.answer r)) w
      = (.ok (), { w with ready := w.ready ++ answers.map .answer }) := by
  induction answers generalizing w with
  | nil => simp [after]
  | cons r rest ih =>
      have hstep : after (do for r in r :: rest do enqueue (.answer r)) w
          = after (do for r in rest do enqueue (.answer r))
            { w with ready := w.ready ++ [Handle.answer r] } := by
        rw [List.forIn_cons]
        rfl
      rw [hstep, ih]
      simp

theorem after_emptyPool (pool : Option Nat) (w : Workspace P) : after (emptyPool pool) w
    = (.ok (), { w with ready := w.ready ++ (scheduledIn w.state pool).map .answer }) :=
  after_enqueueAll (scheduledIn w.state pool) w

/-- Waiting makes answers arrive sooner; the verifier is closed in the same way. -/
theorem after_closeOne (w : Workspace P) (v : Nat) (wait : Bool) :
    ∃ answers : List Nat, after (closeOne v wait) w
      = (.ok (), { w with state := w.state.close v
                          ready := w.ready ++ answers.map .answer }) := by
  have hclose : after (do setState ((← get).state.close v)) w
      = (.ok (), { w with state := w.state.close v, ready := w.ready ++ [].map .answer }) := by
    rw [List.map_nil, List.append_nil]
    rfl
  rw [closeOne, after_bind (x := get) rfl]
  cases hv : w.state.verifier? v with
  | none => exact ⟨[], hclose⟩
  | some ver =>
      dsimp only
      split
      · refine ⟨scheduledIn w.state ver.pool, ?_⟩
        rw [after_bind (after_emptyPool ver.pool w)]
        rfl
      · exact ⟨[], hclose⟩

end Workspace

namespace Verifier.State

variable {P : Type} {backend : Backend P} {s t : State P} {e : Event} {v w r : Nat}
  {request : Request P}

/-! ## What a close leaves alone -/

/-- A pool accepts jobs as before if nobody else's was shut down. -/
theorem Private.accepts_close (hp : Private s v) (hne : w ≠ v) {ver : Verifier}
    (hw : s.verifier? w = some ver) : (s.close v).accepts ver = s.accepts ver := by
  have hwork : s.workPool w = ver.pool := by
    rw [workPool, terms?, hw]
    rfl
  rw [close_eq, accepts, accepts]
  cases hpool : ver.pool with
  | none => rfl
  | some pool =>
      show (shutPool s.pools (s.ownPool v)).getD pool false = s.pools.getD pool false
      cases hown : s.ownPool v with
      | none => rfl
      | some p =>
          -- The pool that is shut down is verifier `v`'s own, and `w` works with another.
          have hother : p ≠ pool := by
            rintro rfl
            exact hp.alone p w hown hne (hwork.trans hpool)
          rw [List.getD_eq_getElem?_getD, List.getD_eq_getElem?_getD, shutPool,
            List.getElem?_set_ne hother]

/-! ## Changes after a close -/

theorem modify_comm {α : Type} {f g : α → α} (h : ∀ a, g (f a) = f (g a)) (l : List α)
    (i j : Nat) : (l.modify i f).modify j g = (l.modify j g).modify i f := by
  -- Only changes to one entry can get in each other's way.
  by_cases hij : i = j
  · subst hij
    have hcomp : g ∘ f = f ∘ g := funext h
    rw [List.modify_modify_eq, List.modify_modify_eq, hcomp]
  · exact List.modify_modify_ne f g l hij

/-- A change that has nothing to do with how a verifier works can be made before or after. -/
theorem onVerifier_close {f : Verifier → Verifier} (hterms : ∀ ver, termsOf (f ver) = termsOf ver)
    (hcomm : ∀ ver, f (markClosed ver) = markClosed (f ver)) (s : State P) (v w : Nat) :
    (s.close v).onVerifier w f = (s.onVerifier w f).close v := by
  have hown : (s.onVerifier w f).ownPool v = s.ownPool v :=
    ownPool_congr (terms?_onVerifier hterms s w v)
  rw [close_eq, close_eq, hown]
  simp only [onVerifier, modify_comm hcomm]

theorem setRequest_close (s : State P) (v r : Nat) (changed : Request P) :
    (s.close v).setRequest r changed = (s.setRequest r changed).close v := by
  rw [close_eq, close_eq]
  rfl

theorem enroll_close (s : State P) (v w : Nat) (request : Request P) :
    (s.close v).enroll w request = (s.enroll w request).close v := by
  have hadd := onVerifier_close (f := addPending s.requests.length) (fun _ => rfl) (fun _ => rfl)
    s v w
  have hown : (s.enroll w request).ownPool v = s.ownPool v :=
    ownPool_congr (terms?_enroll s w request v)
  rw [enroll_eq, requests_close, hadd, close_eq (s.enroll w request), hown, close_eq,
    ownPool_congr (terms?_onVerifier (f := addPending s.requests.length) (fun _ => rfl) s w v),
    enroll_eq]
  rfl

theorem drop_close (s : State P) (v w r : Nat) : (s.close v).drop w r = (s.drop w r).close v := by
  cases hw : s.verifier? w with
  | none =>
      have hw' : (s.close v).verifier? w = none := by
        rw [← Option.not_isSome_iff_eq_none, isSome_verifier?_close, hw]
        exact Bool.false_ne_true
      rw [drop_of_no_verifier hw, drop_of_no_verifier hw']
  | some ver =>
      cases hr : s.request? r with
      | none => rw [drop_of_none hr, drop_of_none ((request?_close s v r).trans hr)]
      | some request =>
          have hsome : (s.verifier? w).isSome = true := by rw [hw]; rfl
          rw [drop_eq hsome hr, drop_eq ((isSome_verifier?_close s v w).trans hsome)
            ((request?_close s v r).trans hr), ← setRequest_close,
            onVerifier_close (f := removePending r) (fun _ => rfl) (fun _ => rfl)]

/-! ## Steps after a close -/

theorem shutPool_append {pools : List Bool} {own : Option Nat}
    (h : ∀ p, own = some p → p < pools.length) (more : List Bool) :
    shutPool (pools ++ more) own = shutPool pools own ++ more := by
  cases own with
  | none => rfl
  | some p => exact List.set_append_left p false (h p rfl)

theorem modify_concat {α : Type} {l : List α} {i : Nat} (hi : i < l.length) (f : α → α) (a : α) :
    (l ++ [a]).modify i f = l.modify i f ++ [a] := by
  apply List.ext_getElem?
  intro j
  rw [List.getElem?_modify]
  rcases Nat.lt_trichotomy j l.length with hlt | rfl | hgt
  · rw [List.getElem?_append_left hlt, List.getElem?_append_left (by simpa using hlt),
      List.getElem?_modify]
  · have hlen : (l.modify i f).length = l.length := List.length_modify f l i
    rw [List.getElem?_concat_length, ← hlen, List.getElem?_concat_length, hlen]
    simp [hi.ne]
  · rw [List.getElem?_eq_none, List.getElem?_eq_none]
    · rfl
    · simp only [List.length_append, List.length_modify, List.length_singleton]
      omega
    · simp only [List.length_append, List.length_singleton]
      omega

/-- A verifier that is opened comes behind the ones that are there. -/
theorem close_addVerifier (hp : Private s v) (more : List Bool) (ver : Verifier) :
    ({ s with pools := s.pools ++ more, verifiers := s.verifiers ++ [ver] } : State P).close v
      = { s.close v with pools := (s.close v).pools ++ more,
                         verifiers := (s.close v).verifiers ++ [ver] } := by
  have hlt : v < s.verifiers.length := by
    obtain ⟨terms, hterms⟩ := Option.isSome_iff_exists.mp hp.found
    obtain ⟨found, hfound, -⟩ := Option.map_eq_some_iff.mp hterms
    exact (List.getElem?_eq_some_iff.mp hfound).1
  set t : State P := { s with pools := s.pools ++ more, verifiers := s.verifiers ++ [ver] }
  have hown : t.ownPool v = s.ownPool v := by
    apply ownPool_congr
    rw [terms?_concat (s := s) ver rfl, if_neg hlt.ne]
  rw [close_eq, close_eq, hown]
  show ({ t with pools := shutPool (s.pools ++ more) (s.ownPool v),
                 verifiers := (s.verifiers ++ [ver]).modify v markClosed } : State P) = _
  rw [shutPool_append hp.made, modify_concat hlt]
  rfl

theorem length_pools_close (s : State P) (v : Nat) :
    (s.close v).pools.length = s.pools.length := by
  rw [close_eq]
  exact length_shutPool _ _

theorem openVerifier_close (hp : Private s v) (workers : Option Int) (pool : Option Nat) :
    ((s.close v).openVerifier workers pool).2 = (s.openVerifier workers pool).2.close v := by
  cases workers with
  | none =>
      have hnew := close_addVerifier hp [] ⟨pool, false, [], false⟩
      rw [List.append_nil, List.append_nil] at hnew
      exact hnew.symm
  | some count =>
      cases pool with
      | some pool => rfl
      | none =>
          rw [openVerifier, openVerifier]
          split
          · rfl
          · have hnew := close_addVerifier hp [true] ⟨some s.pools.length, true, [], false⟩
            show ({ s.close v with
                pools := (s.close v).pools ++ [true],
                verifiers := (s.close v).verifiers
                  ++ [⟨some (s.close v).pools.length, true, [], false⟩] } : State P) = _
            rw [length_pools_close]
            exact hnew.symm

theorem openOne_close_of_ne (hne : w ≠ v) : (s.close v).openOne w = s.openOne w := by
  rw [openOne, openOne, verifier?_close, if_neg hne]

/-- A verifier other than the closed one takes requests as before. -/
theorem submit_close (hp : Private s v) (hne : w ≠ v) (key : Option Nat)
    (digest signature : Held) (callback : Bool) (loop : EventLoop) :
    ((s.close v).submit w key digest signature callback loop).2
      = (s.submit w key digest signature callback loop).2.close v := by
  have hopen : (s.close v).openOne w = s.openOne w := openOne_close_of_ne hne
  cases hw : s.openOne w with
  | error e => rw [submit_of_not_open hw, submit_of_not_open (hopen.trans hw)]
  | ok ver =>
      have hsame : (s.close v).submission ver w key digest signature callback loop
          = s.submission ver w key digest signature callback loop := by
        have haccepts := hp.accepts_close hne (openOne_eq_ok.mp hw).1
        simp only [submission, futureOf?, haccepts, ring_close, buffers_close]
      rw [submit_of_open hw, submit_of_open (hopen.trans hw), hsame]
      split
      · exact enroll_close s v w _
      · exact enroll_close s v w _

theorem await_close (hp : Private s v) (hne : w ≠ v) (key : Option Nat)
    (digest signature : Held) :
    ((s.close v).await w key digest signature).2
      = (s.await w key digest signature).2.close v := by
  have hopen : (s.close v).openOne w = s.openOne w := openOne_close_of_ne hne
  cases hw : s.openOne w with
  | error e =>
      rw [hw] at hopen
      rw [await, await, hw, hopen]
  | ok ver =>
      rw [hw] at hopen
      have haccepts := hp.accepts_close hne (openOne_eq_ok.mp hw).1
      rw [await_of_open hw, await_of_open hopen, ring_close, buffers_close, haccepts]
      split
      · rfl
      split
      · exact enroll_close s v w _
      · rfl

theorem cancel_close (s : State P) (v r : Nat) :
    ((s.close v).cancel r).2 = (s.cancel r).2.close v := by
  rw [cancel, cancel, request?_close]
  split
  · rfl
  split
  · exact setRequest_close s v r _
  · rfl

theorem work_close (backend : Backend P) (s : State P) (v r : Nat) :
    (s.close v).work backend r = (s.work backend r).close v := by
  rw [work, work, request?_close, buffers_close]
  split
  · rfl
  split
  · exact setRequest_close s v r _
  · rfl

theorem pendingCount_close (s : State P) (v w : Nat) :
    (s.close v).pendingCount w = s.pendingCount w := by
  rw [pendingCount_eq, pendingCount_eq, pendingOf_close]

theorem addCall_close (s : State P) (v w r : Nat) (error : Option Failure)
    (result : Option VerifyResult) :
    ({ s.close v with calls := (s.close v).calls
        ++ [⟨r, error, result, (s.close v).pendingCount w⟩] } : State P)
      = State.close
          { s with calls := s.calls ++ [⟨r, error, result, s.pendingCount w⟩] } v := by
  rw [calls_close, pendingCount_close, close_eq, close_eq]
  rfl

theorem report_close (s : State P) (v r : Nat) :
    (s.close v).report r = (s.report r).close v := by
  rw [report, report, request?_close]
  split
  · rfl
  split
  · dsimp only
    rw [setRequest_close]
    split
    · exact addCall_close _ v _ r _ _
    · rfl
  · rfl

theorem finish_close (s : State P) (v r : Nat) :
    (s.close v).finish r = (s.finish r).close v := by
  rw [finish, finish, request?_close]
  split
  · rfl
  split
  · exact drop_close s v _ r
  · rfl

theorem resume_close (s : State P) (v r : Nat) :
    ((s.close v).resume r).2 = (s.resume r).2.close v := by
  rw [resume, resume, request?_close]
  split
  · rfl
  split
  · next w _ _ _ =>
    rw [contains_pendingOf, contains_pendingOf, pendingOf_close]
    split
    · exact drop_close s v w r
    · rfl
  · rfl

/-! ## Drains and further closes after a close -/

theorem ownPool_close (s : State P) (w v : Nat) : (s.close w).ownPool v = s.ownPool v := by
  rw [ownPool, ownPool, terms?_close]
  split
  · next h =>
    rw [h]
    cases s.terms? w with
    | none => rfl
    | some terms => rfl
  · rfl

theorem shutPool_comm (pools : List Bool) (own other : Option Nat) :
    shutPool (shutPool pools own) other = shutPool (shutPool pools other) own := by
  cases own with
  | none => rfl
  | some p =>
      cases other with
      | none => rfl
      | some q =>
          by_cases h : p = q
          · rw [h]
          · exact List.set_comm false false h

/-- The order in which verifiers are closed makes no difference. -/
theorem close_close (s : State P) (v w : Nat) : (s.close v).close w = (s.close w).close v := by
  have hopened : ∀ x y, (s.close x).close y
      = { (s.onVerifier x markClosed).onVerifier y markClosed with
          pools := shutPool (shutPool s.pools (s.ownPool x)) (s.ownPool y) } := by
    intro x y
    rw [close_eq (s.close x) y, ownPool_close, close_eq s x]
    rfl
  rw [hopened, hopened, shutPool_comm]
  simp only [onVerifier, modify_comm fun _ => rfl]

theorem isDrained_close (s : State P) (v w : Nat) : (s.close v).isDrained w = s.isDrained w := by
  have hfuture : ∀ r, (s.close v).hasFuture r = s.hasFuture r := by
    intro r
    rw [hasFuture, hasFuture, request?_close]
  simp only [isDrained_eq, isSome_verifier?_close, pendingOf_close, hfuture]

theorem dropAll_close (s : State P) (v w : Nat) (dropped : List Nat) :
    (s.close v).dropAll w dropped = (s.dropAll w dropped).close v := by
  induction dropped generalizing s with
  | nil => rfl
  | cons r rest ih =>
      show ((s.close v).drop w r).dropAll w rest = ((s.drop w r).dropAll w rest).close v
      rw [drop_close, ih]

theorem drained_close (s : State P) (v w : Nat) :
    (s.close v).drained w = (s.drained w).close v := by
  rw [drained_eq, drained_eq, isDrained_close, pendingOf_close]
  split
  · exact dropAll_close s v w _
  · rfl

theorem leave_close (s : State P) (v w : Nat) : (s.close v).leave w = (s.leave w).close v := by
  rw [leave, leave, isDrained_close]
  split
  · rw [drained_close, close_close]
  · rfl

/-! ## Runs with a close -/

/-- Whether the event hands a verification over to verifier `v`. -/
def handsTo (v : Nat) : Event → Bool
  | .submit w _ _ _ _ _ => w == v
  | .await w _ _ _ => w == v
  | _ => false

/-- Whatever is not handed over to verifier `v` comes to the same before and after a close. -/
theorem apply_close (hp : Private s v) (hno : handsTo v e = false) :
    (s.close v).apply backend e = (s.apply backend e).close v := by
  cases e with
  | keyOp op =>
      rw [close_eq, close_eq]
      rfl
  | addBuffer data =>
      rw [close_eq, close_eq]
      rfl
  | overwrite buffer data =>
      rw [close_eq, close_eq]
      rfl
  | addPool accepting =>
      -- The new pool comes behind the one that the close shuts down.
      have hown : (s.addPool accepting).2.ownPool v = s.ownPool v := rfl
      show ((s.close v).addPool accepting).2 = (s.addPool accepting).2.close v
      rw [close_eq, close_eq, hown]
      show _ = ({ (s.addPool accepting).2.onVerifier v markClosed with
        pools := shutPool (s.pools ++ [accepting]) (s.ownPool v) } : State P)
      rw [shutPool_append hp.made]
      rfl
  | shutDefault =>
      rw [close_eq, close_eq]
      rfl
  | openVerifier workers pool => exact openVerifier_close hp workers pool
  | submit w key digest signature callback loop =>
      exact submit_close hp (by simpa [handsTo] using hno) key digest signature callback loop
  | await w key digest signature =>
      exact await_close hp (by simpa [handsTo] using hno) key digest signature
  | cancel r => exact cancel_close s v r
  | close w => exact close_close s v w
  | work r => exact work_close backend s v r
  | report r => exact report_close s v r
  | finish r => exact finish_close s v r
  | resume r => exact resume_close s v r
  | drained w => exact drained_close s v w
  | leave w => exact leave_close s v w

theorem IsClosed.apply_of_handsTo (h : s.IsClosed v) (hands : handsTo v e = true) :
    s.apply backend e = s := by
  cases e with
  | submit w key digest signature callback loop =>
      obtain rfl : w = v := by simpa [handsTo] using hands
      exact congrArg Prod.snd (h.rejects.submit key digest signature callback loop)
  | await w key digest signature =>
      obtain rfl : w = v := by simpa [handsTo] using hands
      exact congrArg Prod.snd (h.rejects.await key digest signature)
  | _ => cases hands

/-- A run after a close ends like the same run before it, without what was handed over to
the closed verifier. -/
theorem run_close (hp : Private s v) {later : List Event}
    (hfree : ∀ e ∈ later, Unborrowed s v e) :
    (s.close v).run backend later
      = (s.run backend (later.filter fun e => !handsTo v e)).close v := by
  induction later generalizing s with
  | nil => rfl
  | cons e rest ih =>
      show ((s.close v).apply backend e).run backend rest = _
      cases hands : handsTo v e with
      | true =>
          -- The closed verifier refuses it; the other run leaves it out.
          have hclosed : (s.close v).IsClosed v := isClosed_close hp.found
          rw [hclosed.apply_of_handsTo hands, List.filter_cons_of_neg (by simp [hands])]
          exact ih hp fun e' he' => hfree e' (List.mem_cons_of_mem e he')
      | false =>
          have hshift := shift backend s e
          -- Verifier `v` is there, so this step gives it no other pool.
          have hfree' : ∀ e' ∈ rest, Unborrowed (s.apply backend e) v e' := by
            intro e' he' p hown
            rw [hshift.ownPool_of_found hp.found] at hown
            exact hfree e' (List.mem_cons_of_mem e he') p hown
          have hnext := hp.step hshift (hfree e List.mem_cons_self)
          rw [apply_close hp hands, List.filter_cons_of_pos (by simp [hands])]
          exact ih hnext hfree'

/-! ## Requests that were taken in -/

/-- Whoever waits with a callback was accepted with it. -/
theorem Unfinished.accepted {events : List Event} {entry : Entry P}
    (h : Unfinished backend events v r entry) (hcallback : entry.callback = true) :
    Accepted backend events v r := by
  induction h with
  | @comes events e v r entry h =>
      cases h with
      | @submitted _ key digest signature callback loop _ hanswer =>
          obtain rfl : callback = true := hcallback
          exact ⟨events, key, digest, signature, loop, [], rfl, hanswer⟩
      | awaited _ => cases hcallback
  | @stays events e v r entry _ _ ih => exact (ih hcallback).append [e]

/-- A request was completed and released, and its callback was called once. -/
structure IsCompleted (backend : Backend P) (events : List Event) (r : Nat) (entry : Entry P) :
    Prop where
  left : ∀ w, ¬ (run backend .empty events).IsPending w r
  released : ∃ request, (run backend .empty events).request? r = some request ∧ Cleared request
  called : entry.callback = true → ((run backend .empty events).callsOf r).length = 1

/-- A request that was taken in is completed as soon as its completing events have occurred in
their order, whatever else occurs. -/
theorem Unfinished.isCompleted {events later : List Event} {entry : Entry P}
    (h : Unfinished backend events v r entry)
    (hevents : (completion r entry.origin).Sublist later) :
    IsCompleted backend (events ++ later) r entry := by
  have hs : Sound (run backend .empty events) := sound_run events
  have hawaits := h.awaits
  obtain ⟨after, hafter, horigin⟩ : Awaits (run backend .empty (events ++ later)) r
      entry.origin := by
    rw [run_append]
    exact hs.run_induction (Awaits · r entry.origin) hawaits later fun _ heffect _ ha =>
      ha.step heffect
  have hleft : HasLeft (run backend .empty (events ++ later)) v r := by
    rw [run_append]
    rcases h.origin with hv | hv
    · rw [hv] at hawaits hevents
      exact (hs.completed_submitted hawaits hevents).2
    · rw [hv] at hawaits hevents
      exact hs.completed_awaited hawaits hevents
  -- It could be pending with its own verifier only.
  have hnowhere : ∀ w, ¬ (run backend .empty (events ++ later)).IsPending w r := by
    intro w hpending
    have hplace := (accounts_run (events ++ later)).place? hafter hpending
    rw [horigin, Present.place? (.inl h)] at hplace
    exact hleft.2 (Option.some.inj hplace ▸ hpending)
  refine ⟨hnowhere, ⟨after, hafter, (accounts_run _).cleared r after hafter hnowhere⟩, ?_⟩
  intro hcallback
  have haccepted := h.accepted hcallback
  have hv : entry.origin = .submitted v := hawaits.unique haccepted.once.awaits
  rw [hv] at hawaits hevents
  have hreported : Reported (run backend .empty (events ++ later)) v r := by
    rw [run_append]
    exact (hs.completed_submitted hawaits hevents).1
  exact (haccepted.append later).once.length_of_reported hreported

/-! ## Every run -/

/-- Of the verifiers nobody but `v` is touched, and no request that somebody waits for. -/
structure Local (v : Nat) (s t : State P) : Prop where
  others : ∀ w, w ≠ v → t.verifier? w = s.verifier? w
  calls : t.calls = s.calls
  pools : ∀ p, s.ownPool v ≠ some p → t.pools[p]? = s.pools[p]?
  defaultPool : t.defaultPool = s.defaultPool
  requests : ∀ r request, s.request? r = some request → request.origin.host? ≠ none →
    t.request? r = some request

theorem Local.refl (v : Nat) (s : State P) : Local v s s :=
  ⟨fun _ _ => rfl, rfl, fun _ _ => rfl, rfl, fun _ _ hr _ => hr⟩

theorem getElem?_shutPool {pools : List Bool} {own : Option Nat} {p : Nat} (h : own ≠ some p) :
    (shutPool pools own)[p]? = pools[p]? := by
  cases own with
  | none => rfl
  | some pool =>
      refine List.getElem?_set_ne ?_
      rintro rfl
      exact h rfl

theorem Local.close {t : State P} (h : Local v s t) (hown : t.ownPool v = s.ownPool v) :
    Local v s (t.close v) where
  others w hne := by
    rw [verifier?_close, if_neg hne]
    exact h.others w hne
  calls := (calls_close t v).trans h.calls
  pools p hp := by
    rw [close_eq]
    show (shutPool t.pools (t.ownPool v))[p]? = s.pools[p]?
    rw [getElem?_shutPool (by rw [hown]; exact hp), h.pools p hp]
  defaultPool := (defaultPool_close t v).trans h.defaultPool
  requests r request hr horigin := (request?_close t v r).trans (h.requests r request hr horigin)

theorem Orderly.local_drained (ho : Orderly s) (v : Nat) : Local v s (s.drained v) := by
  by_cases h : s.isDrained v = true
  · have hspares := ho.spares h
    have hdrained : s.drained v = s.dropAll v (s.pendingOf v) := by rw [drained_eq, if_pos h]
    constructor
    · intro w hne
      rw [hdrained, verifier?_dropAll_of_ne hne]
    · rw [hdrained, calls_dropAll]
    · intro p _
      rw [hdrained, pools_dropAll]
    · rw [hdrained, defaultPool_dropAll]
    · exact fun r request hr horigin => (hspares.spared r request hr horigin).1
  · rw [drained_eq, if_neg h]
    exact .refl v s

theorem ownPool_drained (s : State P) (v w : Nat) : (s.drained v).ownPool w = s.ownPool w := by
  rw [drained_eq]
  split
  · exact ownPool_congr (terms?_dropAll s v _ w)
  · rfl

/-- Closing a verifier, draining it and leaving its block are nobody else's business. -/
theorem Orderly.local_apply (ho : Orderly s) (he : e = .close v ∨ e = .drained v ∨ e = .leave v) :
    Local v s (s.apply backend e) := by
  rcases he with rfl | rfl | rfl
  · exact (Local.refl v s).close rfl
  · exact ho.local_drained v
  · show Local v s (s.leave v)
    rw [leave]
    split
    · exact (ho.local_drained v).close (ownPool_drained s v v)
    · exact .refl v s

/-- What is said of closing verifiers in all runs. -/
structure Closes (backend : Backend P) : Prop where
  closed : ∀ (s : State P) v, (s.verifier? v).isSome = true → (s.close v).IsClosed v
  /-- A verifier that is closed stays closed and takes nothing any more. -/
  permanent : ∀ (s : State P) v, s.IsClosed v → ∀ later : List Move,
    (later.foldl (move backend) s).IsClosed v ∧ Rejects (later.foldl (move backend) s) v
  /-- Whether closing waits for the pool makes no difference to what is closed. -/
  waiting : ∀ (w : Workspace P) v wait, ∃ answers : List Nat,
    Workspace.after (Workspace.closeOne v wait) w
      = (.ok (), { w with state := w.state.close v, ready := w.ready ++ answers.map .answer })
  /-- What becomes of a request that has a future depends on its own events only: runs that agree
  on these do the same to it, with or without closes. -/
  fate : ∀ events r, (run backend .empty events).hasFuture r = true → ∀ later later',
    later.filter (concerns r) = later'.filter (concerns r) →
      SameFate r (run backend .empty (events ++ later)) (run backend .empty (events ++ later'))
        ∧ ((run backend .empty (events ++ later)).resume r).1
          = ((run backend .empty (events ++ later')).resume r).1
  /-- So a close loses nothing of what was there before. -/
  loses_nothing : ∀ events r, (run backend .empty events).hasFuture r = true →
    ∀ v later later', later.filter (concerns r) = later'.filter (concerns r) →
      SameFate r (run backend .empty (events ++ .close v :: later))
        (run backend .empty (events ++ later'))
  /-- Whatever a verifier has taken in has one. -/
  taken_in : ∀ events r request, (run backend .empty events).request? r = some request →
    request.origin.host? ≠ none → (run backend .empty events).hasFuture r = true
  /-- What was taken in is completed, called and released, wherever closes fall. -/
  completes : ∀ events v r entry, Unfinished backend events v r entry → ∀ later,
    (completion r entry.origin).Sublist later → IsCompleted backend (events ++ later) r entry
  /-- A run with a close ends like the run without it, if nothing else is handed over to that
  verifier, and if nobody borrows the pool that the verifier made for itself. -/
  as_if : ∀ events v later, ((run backend .empty events).verifier? v).isSome = true →
    (∀ e ∈ events ++ later, Unborrowed (run backend .empty events) v e) →
      run backend .empty (events ++ .close v :: later)
        = (run backend .empty (events ++ later.filter fun e => !handsTo v e)).close v
  /-- No step shuts down a pool that no verifier made for itself. -/
  lent : ∀ events p, Unowned (run backend .empty events) p → ∀ later,
    (run backend .empty (events ++ later)).pools[p]? = (run backend .empty events).pools[p]?
  /-- A pool that a client made is such a pool. -/
  made_by_client : ∀ events accepting,
    Unowned (run backend .empty (events ++ [.addPool accepting]))
      (run backend .empty events).pools.length
  /-- No step of a verifier shuts down the pool of the loop. -/
  default_pool : ∀ events later, .shutDefault ∉ later →
    (run backend .empty (events ++ later)).defaultPool = (run backend .empty events).defaultPool
  is_local : ∀ moves v e, e = .close v ∨ e = .drained v ∨ e = .leave v →
    Local v (play backend moves) (play backend (moves ++ [.step e]))
  /-- A block around a verifier ends when nobody is pending with it, and not before. -/
  exit : ∀ moves v,
    ((play backend moves).isDrained v = false → (play backend moves).leave v = play backend moves)
      ∧ ((play backend moves).isDrained v = true →
        (play backend moves).leave v = ((play backend moves).drained v).close v
          ∧ ((play backend moves).drained v).pendingCount v = 0)

theorem sameFate_run {events later later' : List Event}
    (hr : (run backend .empty events).hasFuture r = true)
    (hsame : later.filter (concerns r) = later'.filter (concerns r)) :
    SameFate r (run backend .empty (events ++ later)) (run backend .empty (events ++ later')) := by
  have hg : Grounded backend (run backend .empty events) := grounded_run events
  rw [run_append, run_append]
  exact (SameFate.refl r _).run hg hg hr hsame

/-- Whatever clients, workers, callbacks and the event loop do, and in whatever order. -/
theorem closes (backend : Backend P) : Closes backend where
  closed s v hv := isClosed_close ((isSome_terms? s v).trans hv)
  permanent _ _ h later := ⟨h.moves later, (h.moves later).rejects⟩
  waiting := Workspace.after_closeOne
  fate _ _ hr _ _ hsame := ⟨sameFate_run hr hsame, (sameFate_run hr hsame).resume_fst⟩
  loses_nothing _ _ hr v later later' hsame := by
    refine sameFate_run hr ?_
    rw [← hsame]
    exact List.filter_cons_of_neg Bool.false_ne_true
  taken_in events _ _ hr hhost := by
    obtain ⟨v, hv⟩ := Option.ne_none_iff_exists'.mp hhost
    exact (sound_run events).hasFuture hr hv
  completes _ _ _ _ h _ hevents := h.isCompleted hevents
  as_if events v later hv hfree := by
    have hfound : ((run backend .empty events).terms? v).isSome = true :=
      (isSome_terms? _ v).trans hv
    have hp : Private (run backend .empty events) v :=
      private_run events hfound fun e he => hfree e (List.mem_append_left later he)
    rw [run_append, run_append]
    exact run_close hp fun e he => hfree e (List.mem_append_right events he)
  lent events p hu later := by
    rw [run_append]
    exact hu.run later
  made_by_client events accepting := by
    have hl : Leased (run backend .empty events) := Leased.empty.run events
    rw [run_append]
    exact hl.unowned_addPool accepting
  default_pool events later hno := by
    rw [run_append]
    exact defaultPool_run _ hno
  is_local moves v e he := by
    rw [play_concat]
    exact (Orderly.play backend moves).local_apply he
  exit moves v := by
    refine ⟨fun h => ?_, fun h => ⟨?_, ((Orderly.play backend moves).spares h).none_pending⟩⟩
    · rw [leave, h]
      rfl
    · rw [leave, if_pos h]

/-- Two verifiers on one lent pool.  The first is closed when its submission is on its way,
and its callback submits again. -/
def closingRun : List Event :=
  [.keyOp .new, .keyOp (.setPublic 0 (.bytes (Point.generator.format true))),
   .addPool true, .openVerifier none (some 0), .openVerifier none (some 0),
   submitZeros 0 (.bytes []), .close 0, .work 0, .report 0, submitZeros 0 (.bytes []),
   .finish 0]

example : (run Backend.secp256k1 .empty closingRun).calls
      = [⟨0, none, some .indeterminate, 1⟩]
    ∧ (run Backend.secp256k1 .empty closingRun).verifiers
      = [⟨some 0, false, [], true⟩, ⟨some 0, false, [], false⟩]
    ∧ (run Backend.secp256k1 .empty closingRun).pools = [true] := by decide +kernel

end Verifier.State

end SecpKey
