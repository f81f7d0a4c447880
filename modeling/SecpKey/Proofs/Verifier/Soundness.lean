/-
  SecpKey.Proofs.Verifier.Soundness

  What holds in every state of a run.  `Sound` ties pending sets, completion marks, futures
  and calls together: a submission is pending until it is completed, and whoever was called
  was told of a future that will not change any more (`Reports`).  A step changes one
  request at most, so `Sound.step` comes down to how a request can go on (`Advances`).  Only
  the end of a drain changes several, and none of these was waited for.
-/
import SecpKey.Proofs.Verifier.Effect

namespace SecpKey.Verifier.State

variable {P : Type} {backend : Backend P} {s t : State P} {e : Event} {v r : Nat}
  {request : Request P}

/-! ## What a call says -/

/-- What is told of a future that will not change any more: that it was cancelled, what went
wrong, or the result. -/
inductive Reports : Future P → Option Failure → Option VerifyResult → Prop
  | cancelled : Reports .cancelled (some (.fault .cancelled)) none
  | failed {e : Failure} (h : e ≠ .fault .cancelled) : Reports (.done (.error e)) (some e) none
  | verified {result : VerifyResult} : Reports (.done (.ok result)) none (some result)

theorem reports_of_told {future : Future P} {error : Option Failure}
    {result : Option VerifyResult} (htold : told future = some (error, result))
    (hne : future ≠ .done (.error (.fault .cancelled))) : Reports future error result := by
  cases future with
  | scheduled job => cases htold
  | cancelled =>
      cases htold
      exact .cancelled
  | done outcome =>
      cases outcome with
      | error e =>
          cases htold
          refine .failed ?_
          rintro rfl
          exact hne rfl
      | ok result =>
          cases htold
          exact .verified

/-! ## Requests of a run -/

/-- The request has a future, of which nothing is told as a cancellation but one, and which
is done if the request is completed. -/
def Honest (request : Request P) : Prop :=
  ∃ future, request.future = some future ∧ future ≠ .done (.error (.fault .cancelled))
    ∧ (request.completed = true → future.isDone = true)

theorem honest_of_fresh {future : Future P} (hfuture : request.future = some future)
    (hne : future ≠ .done (.error (.fault .cancelled))) (hfresh : request.completed = false) :
    Honest request := by
  refine ⟨future, hfuture, hne, fun hcompleted => ?_⟩
  rw [hfresh] at hcompleted
  cases hcompleted

/-- What is wrong with a submission from the start is told as it is. -/
theorem honest_submission {ver : Verifier} {key : Option Nat} {digest signature : Held}
    {callback : Bool} {loop : EventLoop}
    (hlate : late loop (s.submission ver v key digest signature callback loop).1 = none) :
    Honest (s.submission ver v key digest signature callback loop).2 := by
  have hfresh := (s.submission_keeps ver v key digest signature callback loop).2.2
  have hne := Request.prepare_ne_cancelled s.ring.point? s.buffers
    (.fresh (.submitted v) key digest signature callback)
  rcases futureOf?_of_late_none hlate s ver _ with ⟨e, hprepared, hfuture⟩ | ⟨-, hfuture⟩
  · refine honest_of_fresh hfuture ?_ hfresh
    rintro ⟨⟩
    exact hne hprepared
  · refine honest_of_fresh hfuture ?_ hfresh
    split
    · exact fun h => nomatch h
    · rw [refusal]
      split
      · exact fun h => nomatch h
      · exact fun h => nomatch h

theorem honest_awaiting (v : Nat) (key : Option Nat) (Q : P) (d b : Bytes) :
    Honest (awaiting v key Q d b) :=
  honest_of_fresh rfl (fun h => nomatch h) rfl

/-- How a request can go on: a completed one keeps its mark and its future. -/
structure Advances (request changed : Request P) : Prop where
  origin : changed.origin = request.origin
  honest : Honest request → Honest changed
  keeps : Honest request → request.completed = true →
    changed.completed = true ∧ changed.future = request.future

theorem advances_of_scheduled {job : Job P} {future : Future P}
    (hfuture : request.future = some (.scheduled job))
    (hne : future ≠ .done (.error (.fault .cancelled))) :
    Advances request { request with future := some future } := by
  -- It is not completed: nothing has been told of a future that is not done.
  have hopen : Honest request → request.completed ≠ true := by
    rintro ⟨future', hfuture', -, hdone⟩ hcompleted
    obtain rfl := Option.some.inj (hfuture.symm.trans hfuture')
    exact absurd (hdone hcompleted) Bool.false_ne_true
  constructor
  case origin =>
    rfl
  case honest =>
    exact fun hr => ⟨future, rfl, hne, fun hcompleted => absurd hcompleted (hopen hr)⟩
  case keeps =>
    exact fun hr hcompleted => absurd hcompleted (hopen hr)

theorem advances_completed {told' : Option Failure × Option VerifyResult}
    (htold : request.future.bind told = some told') :
    Advances request { request with completed := true } := by
  refine ⟨rfl, ?_, fun _ _ => ⟨rfl, rfl⟩⟩
  rintro ⟨future, hfuture, hne, -⟩
  refine ⟨future, hfuture, hne, fun _ => ?_⟩
  rw [hfuture, Option.bind_some] at htold
  cases future with
  | scheduled job => cases htold
  | cancelled => rfl
  | done outcome => rfl

theorem advances_release (request : Request P) : Advances request request.release :=
  ⟨rfl, id, fun _ h => ⟨h, rfl⟩⟩

/-! ## Soundness -/

/-- What holds in every state of a run. -/
structure Sound (s : State P) : Prop where
  /-- Whoever waits for a verifier has a future. -/
  honest : ∀ {r v request}, s.request? r = some request → request.origin.host? = some v →
    Honest request
  /-- A submission stays pending until it is completed. -/
  pending : ∀ {r v request}, s.request? r = some request → request.origin = .submitted v →
    request.completed = false → s.IsPending v r
  /-- A call was made for a completed submission, and told of its future. -/
  calls : ∀ call ∈ s.calls, ∃ request v future, s.request? call.request = some request
    ∧ request.origin = .submitted v ∧ request.completed = true ∧ request.future = some future
    ∧ Reports future call.error call.result

/-- A submission waits for its verifier. -/
theorem host?_of_submitted (h : request.origin = .submitted v) : request.origin.host? = some v := by
  rw [h]
  rfl

theorem host?_of_awaited (h : request.origin = .awaited v) : request.origin.host? = some v := by
  rw [h]
  rfl

namespace Sound

theorem empty : Sound (.empty : State P) where
  honest h := nomatch h
  pending h := nomatch h
  calls _ h := nomatch h

/-- Whoever waits for a verifier is spared by every drain. -/
theorem hasFuture (hs : Sound s) (hr : s.request? r = some request)
    (hhost : request.origin.host? = some v) : s.hasFuture r = true := by
  obtain ⟨future, hfuture, -⟩ := hs.honest hr hhost
  rw [State.hasFuture, hr, Option.bind_some, hfuture, Option.isSome_some]

theorem same (hs : Sound s) (h : Same s t) : Sound t where
  honest hr := hs.honest ((h.request? _).symm.trans hr)
  pending hr horigin hopen := (isPending_congr (h.pending _) _).mpr
    (hs.pending ((h.request? _).symm.trans hr) horigin hopen)
  calls call hcall := by
    rw [h.calls] at hcall
    obtain ⟨request, v, future, hr, hrest⟩ := hs.calls call hcall
    exact ⟨request, v, future, (h.request? _).trans hr, hrest⟩

/-- A request is added, and nobody leaves a pending set.  If it waits for a verifier, it is
pending. -/
theorem added (hs : Sound s) {made : Request P} (hrequests : t.requests = s.requests ++ [made])
    (hcalls : t.calls = s.calls) (hpending : ∀ {w q}, s.IsPending w q → t.IsPending w q)
    (hnew : ∀ {w}, made.origin.host? = some w →
      Honest made ∧ t.IsPending w s.requests.length) : Sound t where
  honest {q w x} hx hw := by
    rw [request?_concat hrequests] at hx
    split at hx
    · obtain rfl := Option.some.inj hx
      exact (hnew hw).1
    · exact hs.honest hx hw
  pending {q w x} hx hw hopen := by
    rw [request?_concat hrequests] at hx
    split at hx
    · next heq =>
      obtain rfl := Option.some.inj hx
      rw [heq]
      exact (hnew (host?_of_submitted hw)).2
    · exact hpending (hs.pending hx hw hopen)
  calls call hcall := by
    rw [hcalls] at hcall
    obtain ⟨request, v, future, hr, hrest⟩ := hs.calls call hcall
    refine ⟨request, v, future, ?_, hrest⟩
    rw [request?_concat hrequests, if_neg (Nat.ne_of_lt (lt_length_of_request? hr)), hr]

theorem made (hs : Sound s) {made : Request P} (h : Made s t v made)
    (hnew : ∀ {w}, made.origin.host? = some w → Honest made ∧ w = v) : Sound t :=
  hs.added h.requests h.calls (fun hq => h.isPending.mpr (.inl hq)) fun hw =>
    ⟨(hnew hw).1, h.isPending.mpr (.inr ⟨(hnew hw).2, rfl⟩)⟩

/-- One request goes on.  Calls are made for it alone, and it stays pending unless it is
completed. -/
theorem changed (hs : Sound s) {changed : Request P} (h : Changed s t r request changed)
    (hadvances : Advances request changed)
    (hpending : ∀ {w q}, s.IsPending w q →
      t.IsPending w q ∨ q = r ∧ (changed.origin = .submitted w → changed.completed = true))
    (hcalls : ∀ call ∈ t.calls, call ∈ s.calls ∨ ∃ w future, call.request = r
      ∧ changed.origin = .submitted w ∧ changed.completed = true ∧ changed.future = some future
      ∧ Reports future call.error call.result) : Sound t where
  honest {q w x} hx hw := by
    rw [h.requests] at hx
    split at hx
    · obtain rfl := Option.some.inj hx
      rw [hadvances.origin] at hw
      exact hadvances.honest (hs.honest h.found hw)
    · exact hs.honest hx hw
  pending {q w x} hx hw hopen := by
    rw [h.requests] at hx
    split at hx
    · next heq =>
      obtain rfl := Option.some.inj hx
      have hw' : request.origin = .submitted w := hadvances.origin.symm.trans hw
      -- A mark is not taken back, so it was open before as well.
      have hopen' : request.completed = false := by
        rw [← Bool.not_eq_true]
        intro hcompleted
        have hhonest := hs.honest h.found (host?_of_submitted hw')
        rw [(hadvances.keeps hhonest hcompleted).1] at hopen
        cases hopen
      rcases hpending (hs.pending h.found hw' hopen') with hafter | ⟨-, hcompleted⟩
      · rw [heq]
        exact hafter
      · rw [hcompleted hw] at hopen
        cases hopen
    · next hne =>
      rcases hpending (hs.pending hx hw hopen) with hafter | ⟨heq, -⟩
      · exact hafter
      · exact absurd heq hne
  calls call hcall := by
    rcases hcalls call hcall with hold | ⟨w, future, heq, hrest⟩
    · obtain ⟨x, w, future, hx, hw, hdone, hfuture, hreports⟩ := hs.calls call hold
      by_cases heq : call.request = r
      · rw [heq] at hx ⊢
        obtain rfl := Option.some.inj (h.found.symm.trans hx)
        -- It was completed by then, so its future is still the one that was told of.
        obtain ⟨hdone', hsame⟩ :=
          hadvances.keeps (hs.honest hx (host?_of_submitted hw)) hdone
        refine ⟨changed, w, future, ?_, hadvances.origin.trans hw, hdone', hsame.trans hfuture,
          hreports⟩
        rw [h.requests, if_pos rfl]
      · refine ⟨x, w, future, ?_, hw, hdone, hfuture, hreports⟩
        rw [h.requests, if_neg heq, hx]
    · refine ⟨changed, w, future, ?_, hrest⟩
      rw [h.requests, if_pos heq]

/-- What is dropped is a completed submission, or none. -/
theorem dropped (hs : Sound s) (h : Dropped s t v r request)
    (hdone : ∀ {w}, request.origin = .submitted w → request.completed = true) : Sound t := by
  refine hs.changed h.toChanged (advances_release request) ?_ (h.calls ▸ fun _ => .inl)
  intro w q hq
  rw [h.isPending]
  by_cases heq : q = r
  · exact .inr ⟨heq, hdone⟩
  · exact .inl ⟨hq, fun hpair => heq hpair.2⟩

/-- Who waits is not discarded, and whoever is discarded was not waited for. -/
theorem discarded (hs : Sound s) (h : Discarded s t v) : Sound t := by
  have hkept : ∀ {q w x}, t.request? q = some x → x.origin.host? = some w →
      s.request? q = some x ∧ ∀ y, t.IsPending y q ↔ s.IsPending y q := by
    intro q w x hx hw
    have hfuture : s.hasFuture q = true := by
      rw [h.requests] at hx
      split at hx
      · obtain ⟨before, hbefore, rfl⟩ := Option.map_eq_some_iff.mp hx
        exact hs.hasFuture hbefore hw
      · exact hs.hasFuture hx hw
    obtain ⟨hsame, hpending⟩ := h.spares hfuture
    exact ⟨hsame.symm.trans hx, hpending⟩
  constructor
  case honest =>
    intro q w x hx hw
    exact hs.honest (hkept hx hw).1 hw
  case pending =>
    intro q w x hx hw hopen
    obtain ⟨hsame, hpending⟩ := hkept hx (host?_of_submitted hw)
    exact (hpending w).mpr (hs.pending hsame hw hopen)
  case calls =>
    intro call hcall
    rw [h.calls] at hcall
    obtain ⟨request, w, future, hr, hw, hrest⟩ := hs.calls call hcall
    obtain ⟨hsame, -⟩ := h.spares (hs.hasFuture hr (host?_of_submitted hw))
    exact ⟨request, w, future, hsame.trans hr, hw, hrest⟩

/-- Every step keeps it. -/
theorem step (hs : Sound s) (h : Effect backend s e t) : Sound t := by
  cases h with
  | aside h => exact hs.same h
  | submitted _ hlate h =>
      refine hs.made h fun hw => ⟨honest_submission hlate, ?_⟩
      rw [(s.submission_keeps _ _ _ _ _ _ _).1] at hw
      exact (Option.some.inj hw).symm
  | stranded h => exact hs.made h fun hw => nomatch hw
  | awaited h =>
      exact hs.made h fun hw => ⟨honest_awaiting _ _ _ _ _, (Option.some.inj hw).symm⟩
  | cancelled hfuture h hcalls hpending =>
      refine hs.changed h (advances_of_scheduled hfuture (fun h => nomatch h))
        (fun hq => .inl ((isPending_congr (hpending _) _).mpr hq)) ?_
      rw [hcalls]
      exact fun _ => .inl
  | answered hfuture h hcalls hpending =>
      refine hs.changed h (advances_of_scheduled hfuture ?_)
        (fun hq => .inl ((isPending_congr (hpending _) _).mpr hq)) ?_
      · intro hdone
        injection hdone with hdone
        exact Job.run_ne_cancelled _ _ hdone
      · rw [hcalls]
        exact fun _ => .inl
  | @reported _ r v request error result horigin hopen htold h hcalls hpending =>
      refine hs.changed h (advances_completed htold)
        (fun hq => .inl ((isPending_congr (hpending _) _).mpr hq)) ?_
      intro call hcall
      rw [hcalls, List.mem_append] at hcall
      rcases hcall with hold | hnew
      · exact .inl hold
      -- The new call is for this request, and says what its future is.
      · obtain ⟨future, hfuture, hne, -⟩ := hs.honest h.found (host?_of_submitted horigin)
        rw [hfuture, Option.bind_some] at htold
        split at hnew
        · obtain rfl := List.mem_singleton.mp hnew
          exact .inr ⟨v, future, rfl, horigin, rfl, hfuture, reports_of_told htold hne⟩
        · cases hnew
  | finished _ hcompleted h => exact hs.dropped h fun _ => hcompleted
  | resumed horigin _ h =>
      -- A coroutine is no submission, and is never marked.
      apply hs.dropped h
      intro w hw
      rw [horigin] at hw
      cases hw
  | discarded h => exact hs.discarded h

/-- Whatever holds at the start of a run and is kept by its steps holds at its end. -/
theorem run_induction (hs : Sound s) (p : State P → Prop) (hp : p s) (later : List Event)
    (hstep : ∀ {s t : State P} {e : Event},
      e ∈ later → Effect backend s e t → Sound s → p s → p t) :
    p (s.run backend later) := by
  -- Soundness goes along, since a step may need it of the state that it starts from.
  induction later generalizing s with
  | nil => exact hp
  | cons e rest ih =>
      have heffect := effect backend s e
      have hfirst : p (s.apply backend e) := hstep (List.mem_cons_self) heffect hs hp
      exact ih (hs.step heffect) hfirst fun he => hstep (List.mem_cons_of_mem _ he)

theorem run (hs : Sound s) (events : List Event) : Sound (s.run backend events) :=
  hs.run_induction Sound hs events fun _ heffect hs _ => hs.step heffect

end Sound

theorem run_append (s : State P) (before after : List Event) :
    s.run backend (before ++ after) = (s.run backend before).run backend after :=
  List.foldl_append

theorem sound_run (events : List Event) : Sound (run backend .empty events) :=
  Sound.empty.run events

theorem Reachable.sound (h : Reachable backend s) : Sound s := by
  obtain ⟨events, rfl⟩ := h
  exact sound_run events

end SecpKey.Verifier.State
