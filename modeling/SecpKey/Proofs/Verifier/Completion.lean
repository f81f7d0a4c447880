/-
  SecpKey.Proofs.Verifier.Completion

  The callback of a submission is called once.  `Once` follows one submission, which either
  waits for its call or has had it; every step keeps that (`Once.step`), and a drain cannot
  end as long as the submission waits.  The other way round, a call can always be traced to
  a submission that was accepted (`Traced`).  `Completes` lists what follows for a run.
-/
import SecpKey.Backend.Secp256k1
import SecpKey.Proofs.Verifier.Progress

namespace SecpKey.Verifier.State

variable {P : Type} {backend : Backend P} {s t : State P} {e : Event} {v r : Nat}
  {events : List Event}

/-! ## One submission -/

/-- The submission waits for its call, or it is completed and was called. -/
def Once (s : State P) (v r : Nat) : Prop :=
  ∃ request, s.request? r = some request ∧ request.origin = .submitted v
    ∧ (request.completed = false ∧ request.callback = true ∧ s.callsOf r = []
      ∨ request.completed = true ∧ ∃ call, s.callsOf r = [call])

namespace Once

/-- The request keeps its origin, its mark and its callback, and no call is made for it. -/
theorem of_same (ho : Once s v r) {request changed : Request P} (hr : s.request? r = some request)
    (hr' : t.request? r = some changed) (horigin : changed.origin = request.origin)
    (hcompleted : changed.completed = request.completed)
    (hcallback : request.completed = false → changed.callback = request.callback)
    (hcalls : t.callsOf r = s.callsOf r) : Once t v r := by
  obtain ⟨x, hx, hv, hphase⟩ := ho
  obtain rfl := Option.some.inj (hr.symm.trans hx)
  refine ⟨changed, hr', horigin.trans hv, ?_⟩
  rw [hcompleted, hcalls]
  rcases hphase with ⟨hopen, hwaits, hnone⟩ | hcalled
  · exact .inl ⟨hopen, (hcallback hopen).trans hwaits, hnone⟩
  · exact .inr hcalled

theorem made (ho : Once s v r) {w : Nat} {made : Request P} (h : Made s t w made) : Once t v r := by
  obtain ⟨request, hr, hrest⟩ := ho
  exact of_same ⟨request, hr, hrest⟩ hr (h.request?_of_some hr) rfl rfl (fun _ => rfl)
    (callsOf_of_calls h.calls r)

/-- Another request changed, or this one in what does not matter. -/
theorem changed (ho : Once s v r) {q : Nat} {request changed : Request P}
    (h : Changed s t q request changed) (hcalls : t.callsOf r = s.callsOf r)
    (hsame : q = r → changed.origin = request.origin ∧ changed.completed = request.completed
      ∧ (request.completed = false → changed.callback = request.callback)) : Once t v r := by
  obtain ⟨x, hx, hrest⟩ := ho
  by_cases heq : r = q
  · obtain rfl := Option.some.inj (h.found.symm.trans (heq ▸ hx))
    obtain ⟨horigin, hcompleted, hcallback⟩ := hsame heq.symm
    refine of_same ⟨request, hx, hrest⟩ hx ?_ horigin hcompleted hcallback hcalls
    rw [h.requests, if_pos heq]
  · refine of_same ⟨x, hx, hrest⟩ hx ?_ rfl rfl (fun _ => rfl) hcalls
    rw [h.requests, if_neg heq, hx]

/-- Every step keeps it: only a report makes calls, and it makes one, for a submission that
waits. -/
theorem step (ho : Once s v r) (hs : Sound s) (h : Effect backend s e t) : Once t v r := by
  cases h with
  | aside h =>
      obtain ⟨request, hr, hrest⟩ := ho
      exact of_same ⟨request, hr, hrest⟩ hr ((h.request? r).trans hr) rfl rfl (fun _ => rfl)
        (callsOf_of_calls h.calls r)
  | submitted _ _ h => exact ho.made h
  | stranded h => exact ho.made h
  | awaited h => exact ho.made h
  | cancelled _ h hcalls _ =>
      exact ho.changed h (callsOf_of_calls hcalls r) fun _ => ⟨rfl, rfl, fun _ => rfl⟩
  | answered _ h hcalls _ =>
      exact ho.changed h (callsOf_of_calls hcalls r) fun _ => ⟨rfl, rfl, fun _ => rfl⟩
  | @reported _ q w request error result horigin hopen htold h hcalls _ =>
      have hcallsOf := callsOf_append s _ r hcalls
      by_cases heq : q = r
      · subst heq
        obtain ⟨x, hx, hv, hphase⟩ := ho
        obtain rfl := Option.some.inj (h.found.symm.trans hx)
        rcases hphase with ⟨-, hwaits, hnone⟩ | ⟨hcompleted, -⟩
        · refine ⟨_, (h.requests q).trans (if_pos rfl), hv,
            .inr ⟨rfl, ⟨q, error, result, s.pendingCount w⟩, ?_⟩⟩
          rw [hcallsOf, hnone, if_pos hwaits]
          simp
        · rw [hopen] at hcompleted
          cases hcompleted
      · refine ho.changed h ?_ fun hqr => absurd hqr heq
        rw [hcallsOf]
        split
        · simp [heq]
        · simp
  | finished _ hcompleted h =>
      refine ho.changed h.toChanged (callsOf_of_calls h.calls r) fun _ => ?_
      refine ⟨rfl, rfl, fun hopen => ?_⟩
      rw [hopen] at hcompleted
      cases hcompleted
  | resumed horigin _ h =>
      refine ho.changed h.toChanged (callsOf_of_calls h.calls r) fun heq => ?_
      -- A coroutine waits for that request, so it is another one.
      obtain ⟨x, hx, hv, -⟩ := ho
      subst heq
      obtain rfl := Option.some.inj (h.found.symm.trans hx)
      rw [hv] at horigin
      cases horigin
  | discarded h =>
      -- It has a future, which those who are dropped have not.
      obtain ⟨request, hr, hv, hphase⟩ := ho
      have hspared := (h.spares (hs.hasFuture hr (host?_of_submitted hv))).1
      exact of_same ⟨request, hr, hv, hphase⟩ hr (hspared.trans hr) rfl rfl (fun _ => rfl)
        (callsOf_of_calls h.calls r)

theorem run (ho : Once s v r) (hs : Sound s) (events : List Event) :
    Once (s.run backend events) v r :=
  hs.run_induction (Once · v r) ho events fun _ heffect hs ho => ho.step hs heffect

theorem length_le (ho : Once s v r) : (s.callsOf r).length ≤ 1 := by
  obtain ⟨_, _, _, ⟨_, _, hnone⟩ | ⟨_, call, hcall⟩⟩ := ho
  · rw [hnone]
    exact Nat.zero_le 1
  · rw [hcall]
    exact Nat.le_refl 1

theorem awaits (ho : Once s v r) : Awaits s r (.submitted v) := by
  obtain ⟨request, hr, hv, -⟩ := ho
  exact ⟨request, hr, hv⟩

/-- A submission that was reported has been called. -/
theorem length_of_reported (ho : Once s v r) (hreported : Reported s v r) :
    (s.callsOf r).length = 1 := by
  obtain ⟨request, hr, -, hcompleted⟩ := hreported
  obtain ⟨x, hx, -, ⟨hopen, -⟩ | ⟨-, call, hcall⟩⟩ := ho
  · obtain rfl := Option.some.inj (hr.symm.trans hx)
    rw [hopen] at hcompleted
    cases hcompleted
  · rw [hcall]
    rfl

/-- A drain that may end has seen the call: what waits is pending, and has a future. -/
theorem length_of_isDrained (ho : Once s v r) (hs : Sound s) (hdrained : s.isDrained v = true) :
    (s.callsOf r).length = 1 := by
  obtain ⟨request, hr, hv, ⟨hopen, -, -⟩ | ⟨-, call, hcall⟩⟩ := ho
  · have hpending := isPending_iff.mp (hs.pending hr hv hopen)
    have hnone := hasFuture_of_isDrained hdrained hpending
    rw [hs.hasFuture hr (host?_of_submitted hv)] at hnone
    cases hnone
  · rw [hcall]
    rfl

end Once

/-- Calls are not taken back. -/
theorem Effect.exists_calls (h : Effect backend s e t) : ∃ calls, t.calls = s.calls ++ calls := by
  rcases h.calls_eq_or with hsame | ⟨_, _, _, _, _, -, -, -, -, hcalls⟩
  · exact ⟨[], by rw [hsame, List.append_nil]⟩
  · exact ⟨_, hcalls⟩

theorem Sound.length_callsOf_le (hs : Sound s) (r : Nat) (later : List Event) :
    (s.callsOf r).length ≤ ((s.run backend later).callsOf r).length := by
  apply hs.run_induction (fun t => (s.callsOf r).length ≤ (t.callsOf r).length)
    (Nat.le_refl _) later
  intro u t e _ heffect _ hle
  obtain ⟨calls, hcalls⟩ := heffect.exists_calls
  rw [callsOf_append u calls r hcalls, List.length_append]
  exact Nat.le_trans hle (Nat.le_add_right _ _)

/-! ## Where calls come from -/

/-- In the run, a submission with a callback to verifier `v` returned the number `r`. -/
def Accepted (backend : Backend P) (events : List Event) (v r : Nat) : Prop :=
  ∃ before key digest signature loop after,
    events = before ++ .submit v key digest signature true loop :: after
      ∧ ((run backend .empty before).submit v key digest signature true loop).1 = .ok r

theorem Accepted.append (h : Accepted backend events v r) (later : List Event) :
    Accepted backend (events ++ later) v r := by
  obtain ⟨before, key, digest, signature, loop, after, rfl, hanswer⟩ := h
  refine ⟨before, key, digest, signature, loop, after ++ later, ?_, hanswer⟩
  rw [List.append_assoc, List.cons_append]

/-- Callbacks that wait, and calls, belong to submissions that were accepted. -/
structure Traced (backend : Backend P) (events : List Event) (s : State P) : Prop where
  callback : ∀ {r v request}, s.request? r = some request → request.origin = .submitted v →
    request.callback = true → Accepted backend events v r
  calls : ∀ call ∈ s.calls, ∃ v, Accepted backend events v call.request

namespace Traced

theorem later (ht : Traced backend events s) (e : Event) : Traced backend (events ++ [e]) s where
  callback hr horigin hcallback := (ht.callback hr horigin hcallback).append [e]
  calls call hcall := by
    obtain ⟨v, haccepted⟩ := ht.calls call hcall
    exact ⟨v, haccepted.append [e]⟩

theorem made (ht : Traced backend events s) {made : Request P} (h : Made s t v made)
    (hcallback : ∀ {w}, made.origin = .submitted w → made.callback = true →
      Accepted backend events w s.requests.length) : Traced backend events t where
  callback {q w x} hx hw hwaits := by
    rw [h.request?] at hx
    split at hx
    · next heq =>
      obtain rfl := Option.some.inj hx
      rw [heq]
      exact hcallback hw hwaits
    · exact ht.callback hx hw hwaits
  calls call hcall := ht.calls call (h.calls ▸ hcall)

theorem changed (ht : Traced backend events s) {request changed : Request P}
    (h : Changed s t r request changed) (hnext : Succeeds request changed)
    (hcallback : changed.callback = true → request.callback = true)
    (hcalls : ∀ call ∈ t.calls, call ∈ s.calls
      ∨ call.request = r ∧ request.callback = true ∧ ∃ w, request.origin = .submitted w) :
    Traced backend events t where
  callback {q w x} hx hw hwaits := by
    rw [h.requests] at hx
    split at hx
    · next heq =>
      obtain rfl := Option.some.inj hx
      rw [heq]
      exact ht.callback h.found (hnext.origin.symm.trans hw) (hcallback hwaits)
    · exact ht.callback hx hw hwaits
  calls call hcall := by
    rcases hcalls call hcall with hold | ⟨heq, hwaits, w, hw⟩
    · exact ht.calls call hold
    · rw [heq]
      exact ⟨w, ht.callback h.found hw hwaits⟩

/-- Who is dropped keeps no callback. -/
theorem dropped (ht : Traced backend events s) {request : Request P}
    (h : Dropped s t v r request) : Traced backend events t :=
  ht.changed h.toChanged (succeeds_release request)
    (fun hwaits => absurd hwaits Bool.false_ne_true) (h.calls ▸ fun _ => .inl)

theorem discarded (ht : Traced backend events s) (h : Discarded s t v) :
    Traced backend events t where
  callback {q w x} hx hw hwaits := by
    rw [h.requests] at hx
    split at hx
    · obtain ⟨before, -, rfl⟩ := Option.map_eq_some_iff.mp hx
      cases hwaits
    · exact ht.callback hx hw hwaits
  calls call hcall := ht.calls call (h.calls ▸ hcall)

/-- A step that follows a run. -/
theorem step (ht : Traced backend events (run backend .empty events))
    (h : Effect backend (run backend .empty events) e t) : Traced backend (events ++ [e]) t := by
  have ht := ht.later e
  cases h with
  | aside h =>
      refine ⟨fun hr => ht.callback ((h.request? _).symm.trans hr), ?_⟩
      rw [h.calls]
      exact ht.calls
  | @submitted _ v ver key digest signature callback loop hopen hlate h =>
      apply ht.made h
      intro w hw hwaits
      obtain ⟨horigin, hcallback, -⟩ :=
        (run backend .empty events).submission_keeps ver v key digest signature callback loop
      obtain rfl := Origin.submitted.inj (horigin.symm.trans hw)
      obtain rfl : callback = true := hcallback.symm.trans hwaits
      refine ⟨events, key, digest, signature, loop, [], rfl, ?_⟩
      rw [submit_of_late_none hopen hlate]
  | stranded h => exact ht.made h fun hw => nomatch hw
  | awaited h => exact ht.made h fun hw => nomatch hw
  | cancelled _ h hcalls _ =>
      exact ht.changed h ⟨rfl, id, .inr fun _ h => nomatch h⟩ id (hcalls ▸ fun _ => .inl)
  | answered _ h hcalls _ =>
      exact ht.changed h ⟨rfl, id, .inr fun _ h => nomatch h⟩ id (hcalls ▸ fun _ => .inl)
  | reported horigin _ _ h hcalls _ =>
      apply ht.changed h ⟨rfl, fun _ => rfl, .inl rfl⟩ id
      intro call hcall
      rw [hcalls, List.mem_append] at hcall
      rcases hcall with hold | hnew
      · exact .inl hold
      · split at hnew
        · next hwaits =>
          obtain rfl := List.mem_singleton.mp hnew
          exact .inr ⟨rfl, hwaits, _, horigin⟩
        · cases hnew
  | finished _ _ h => exact ht.dropped h
  | resumed _ _ h => exact ht.dropped h
  | discarded h => exact ht.discarded h

end Traced

theorem traced_run (events : List Event) : Traced backend events (run backend .empty events) := by
  induction events using List.reverseRecOn with
  | nil => exact ⟨(fun h => nomatch h), (fun _ h => nomatch h)⟩
  | append_singleton events e ih =>
      rw [run_append]
      exact ih.step (effect backend _ e)

/-- Whoever is no submission is not called. -/
theorem Sound.callsOf_eq_nil (hs : Sound s)
    (h : ∀ v, ¬ Awaits s r (.submitted v)) : s.callsOf r = [] := by
  rw [callsOf, List.filter_eq_nil_iff]
  intro call hcall heq
  obtain ⟨request, v, _, hr, hv, -⟩ := hs.calls call hcall
  rw [beq_iff_eq] at heq
  exact h v ⟨request, heq ▸ hr, hv⟩

/-- Nor is it later. -/
theorem Sound.callsOf_run_eq_nil {origin : Origin} (hs : Sound s) (ha : Awaits s r origin)
    (horigin : ∀ v, origin ≠ .submitted v) (later : List Event) :
    (s.run backend later).callsOf r = [] := by
  refine (hs.run later).callsOf_eq_nil fun v hv => ?_
  obtain ⟨x, hx, hw⟩ := hs.run_induction (Awaits · r origin) ha later
    fun _ heffect _ ha => ha.step heffect
  obtain ⟨y, hy, hv⟩ := hv
  obtain rfl := Option.some.inj (hx.symm.trans hy)
  exact horigin v (hw.symm.trans hv)

/-- A submission waits as soon as it is made. -/
theorem once_of_submit {ver : Verifier} {key : Option Nat} {digest signature : Held}
    {loop : EventLoop} (hs : Sound s) (hopen : s.openOne v = .ok ver)
    (hlate : late loop (s.submission ver v key digest signature true loop).1 = none) :
    Once (s.submit v key digest signature true loop).2 v s.requests.length := by
  obtain ⟨horigin, hcallback, hfresh⟩ := s.submission_keeps ver v key digest signature true loop
  have hmade := made_enroll (isSome_verifier?_of_openOne hopen)
    (s.submission ver v key digest signature true loop).2
  rw [submit_of_late_none hopen hlate]
  refine ⟨_, (hmade.request? _).trans (if_pos rfl), horigin, .inl ⟨hfresh, hcallback, ?_⟩⟩
  rw [callsOf_of_calls hmade.calls]
  -- The number has not been given out before.
  apply hs.callsOf_eq_nil
  rintro w ⟨request, hr, -⟩
  exact absurd (lt_length_of_request? hr) (Nat.lt_irrefl _)

/-- A submission that returns was made to an open verifier, and nothing failed too late. -/
theorem submit_eq_ok {key : Option Nat} {digest signature : Held} {callback : Bool}
    {loop : EventLoop} (h : (s.submit v key digest signature callback loop).1 = .ok r) :
    r = s.requests.length ∧ ∃ ver, s.openOne v = .ok ver
      ∧ late loop (s.submission ver v key digest signature callback loop).1 = none := by
  cases hopen : s.openOne v with
  | error e =>
      rw [submit_of_not_open hopen] at h
      cases h
  | ok ver =>
      cases hlate : late loop (s.submission ver v key digest signature callback loop).1 with
      | none =>
          rw [submit_of_late_none hopen hlate] at h
          exact ⟨(Except.ok.inj h).symm, ver, rfl, hlate⟩
      | some e =>
          rw [submit_of_late_some hopen hlate] at h
          cases h

theorem Accepted.once (h : Accepted backend events v r) : Once (run backend .empty events) v r := by
  obtain ⟨before, key, digest, signature, loop, after, rfl, hanswer⟩ := h
  have hs : Sound (run backend .empty before) := sound_run before
  obtain ⟨rfl, ver, hopen, hlate⟩ := submit_eq_ok hanswer
  have hafter : Sound (apply backend (run backend .empty before)
      (.submit v key digest signature true loop)) := hs.step (effect backend _ _)
  rw [run_append]
  exact (once_of_submit hs hopen hlate).run hafter after

/-! ## Every run -/

/-- What is said of the callbacks of a run. -/
structure Completes (backend : Backend P) (events : List Event) : Prop where
  /-- Whoever is called had made a submission that was accepted. -/
  accepted : ∀ call ∈ (run backend .empty events).calls,
    ∃ v, Accepted backend events v call.request
  /-- A call says what became of the future of its request, which is one thing. -/
  reports : ∀ call ∈ (run backend .empty events).calls, ∃ request future,
    (run backend .empty events).request? call.request = some request
      ∧ request.future = some future ∧ Reports future call.error call.result
  at_most_once : ∀ v r, Accepted backend events v r →
    ((run backend .empty events).callsOf r).length ≤ 1
  /-- When a drain of its verifier ends, and for ever after, a submission has been called. -/
  exactly_once : ∀ v r, Accepted backend events v r →
    (run backend .empty events).isDrained v = true → ∀ later,
      ((run backend .empty (events ++ later)).callsOf r).length = 1
  /-- So it has when its answer has arrived and was reported after that. -/
  called : ∀ v r, Accepted backend events v r → ∀ later,
    [.work r, .report r].Sublist later →
      ((run backend .empty (events ++ later)).callsOf r).length = 1
  /-- A future that is done needs no answer: it was cancelled, or what is wrong was known when
  the submission was made. -/
  called_at_once : ∀ v r, Accepted backend events v r →
    Answered (run backend .empty events) r → ∀ later, .report r ∈ later →
      ((run backend .empty (events ++ later)).callsOf r).length = 1
  /-- A closed verifier refuses a submission, and nothing happens. -/
  refused : ∀ v key digest signature callback loop e,
    (run backend .empty events).openOne v = .error e →
      (run backend .empty events).submit v key digest signature callback loop
        = (.error e, run backend .empty events)
  /-- Whatever a submission that raises leaves behind, it is never called. -/
  raised : ∀ v key digest signature callback loop e,
    ((run backend .empty events).submit v key digest signature callback loop).1 = .error e →
      ∀ later r, (run backend .empty events).requests.length ≤ r →
        r < (run backend .empty
          (events ++ [.submit v key digest signature callback loop])).requests.length →
        (run backend .empty
          (events ++ .submit v key digest signature callback loop :: later)).callsOf r = []

/-- Whatever a submission that raises leaves behind is no submission. -/
theorem not_awaits_of_raised {key : Option Nat} {digest signature : Held} {callback : Bool}
    {loop : EventLoop} {failure : Failure}
    (h : (s.submit v key digest signature callback loop).1 = .error failure)
    (hold : s.requests.length ≤ r)
    (hnew : r < (s.submit v key digest signature callback loop).2.requests.length) :
    ∃ w, Awaits (s.submit v key digest signature callback loop).2 r (.stranded w) := by
  cases hopen : s.openOne v with
  | error e =>
      rw [submit_of_not_open hopen] at hnew
      exact absurd hnew (Nat.not_lt.mpr hold)
  | ok ver =>
      cases hlate : late loop (s.submission ver v key digest signature callback loop).1 with
      | none =>
          rw [submit_of_late_none hopen hlate] at h
          cases h
      | some e =>
          set stranded := (s.submission ver v key digest signature callback loop).2.strand v
          rw [submit_of_late_some hopen hlate] at hnew ⊢
          have hmade : Made s (s.enroll v stranded) v stranded :=
            made_enroll (isSome_verifier?_of_openOne hopen) stranded
          dsimp only at hnew
          rw [hmade.requests, List.length_append, List.length_singleton] at hnew
          have hr : r = s.requests.length := by omega
          exact ⟨v, stranded, (hmade.request? r).trans (if_pos hr), rfl⟩

/-- Whatever clients, workers, callbacks and the event loop do, and in whatever order. -/
theorem completes (backend : Backend P) (events : List Event) : Completes backend events where
  accepted := (traced_run events).calls
  reports call hcall := by
    obtain ⟨request, _, future, hr, -, -, hfuture, hreports⟩ := (sound_run events).calls call hcall
    exact ⟨request, future, hr, hfuture, hreports⟩
  at_most_once v r h := h.once.length_le
  exactly_once v r h hdrained later := by
    have hs : Sound (run backend .empty events) := sound_run events
    have hkeeps : _ ≤ ((run backend _ later).callsOf r).length := hs.length_callsOf_le r later
    rw [← run_append, h.once.length_of_isDrained hs hdrained] at hkeeps
    exact Nat.le_antisymm (h.append later).once.length_le hkeeps
  called v r h later hevents := by
    have hreported : Reported ((run backend .empty events).run backend later) v r :=
      (sound_run events).reported_of_sublist h.once.awaits hevents
    rw [← run_append] at hreported
    exact (h.append later).once.length_of_reported hreported
  called_at_once v r h ha later hreport := by
    have hreported : Reported ((run backend .empty events).run backend later) v r :=
      (sound_run events).reported_of_mem h.once.awaits ha hreport
    rw [← run_append] at hreported
    exact (h.append later).once.length_of_reported hreported
  refused _ key digest signature callback loop _ h :=
    submit_of_not_open h key digest signature callback loop
  raised v key digest signature callback loop e h later r hold hnew := by
    rw [run_append] at hnew
    obtain ⟨w, hawaits⟩ := not_awaits_of_raised h hold hnew
    have hs := (sound_run events).step
      (effect backend (run backend .empty events) (.submit v key digest signature callback loop))
    rw [run_append]
    exact hs.callsOf_run_eq_nil hawaits (fun _ h => nomatch h) later

/-- A key with the generator as its point, and a verifier on the pool of the loop. -/
def generatorRun : List Event :=
  [.keyOp .new, .keyOp (.setPublic 0 (.bytes (Point.generator.format true))),
   .openVerifier none none]

/-- The generator signs a digest of zeros with its own x-coordinate, twice. -/
def zerosSignature : Bytes := Signature.encode generatorX generatorX

def submitZeros (v : Nat) (signature : Argument) : Event :=
  .submit v (some 0) (.value (.bytes (List.replicate 32 0))) (.value signature) true .running

/-- Submissions under the generator: one that is verified, one whose digest is rejected, one that
the pool refuses, and one that will be cancelled. -/
def submissions : List Event :=
  generatorRun ++ [.addPool false, .openVerifier none (some 0),
   submitZeros 0 (.bytes zerosSignature),
   .submit 0 (some 0) (.value (.bytes [])) (.value (.bytes zerosSignature)) true .running,
   submitZeros 1 (.bytes zerosSignature), submitZeros 0 (.bytes zerosSignature)]

/-- What becomes of them, after one that raises, and the ends of the drains. -/
def completions : List Event :=
  [submitZeros 0 .released, .cancel 3, .work 0, .report 0, .finish 0, .report 1, .finish 1,
   .report 2, .finish 2, .work 3, .report 3, .finish 3, .drained 0, .drained 1]

/-- Each is called once, and the one that raises is not. -/
theorem completes_submissions :
    (run Backend.secp256k1 .empty (submissions ++ completions)).calls
        = [⟨0, none, some .valid, 4⟩,
           ⟨1, some (.invalidInput (.digestSize 0)), none, 3⟩,
           ⟨2, some (.fault .jobRefused), none, 1⟩,
           ⟨3, some (.fault .cancelled), none, 2⟩]
      ∧ ((run Backend.secp256k1 .empty (submissions ++ completions)).callsOf 0).length = 1
      ∧ ((run Backend.secp256k1 .empty (submissions ++ completions)).callsOf 1).length = 1
      ∧ ((run Backend.secp256k1 .empty (submissions ++ completions)).callsOf 2).length = 1
      ∧ ((run Backend.secp256k1 .empty (submissions ++ completions)).callsOf 3).length = 1
      ∧ (run Backend.secp256k1 .empty (submissions ++ completions)).callsOf 4 = [] := by
  have hverified : Accepted Backend.secp256k1 submissions 0 0 :=
    ⟨submissions.take 5, some 0, _, _, .running, submissions.drop 6, rfl, by decide +kernel⟩
  have hrejected : Accepted Backend.secp256k1 submissions 0 1 :=
    ⟨submissions.take 6, some 0, _, _, .running, submissions.drop 7, rfl, by decide +kernel⟩
  have hrefused : Accepted Backend.secp256k1 submissions 1 2 :=
    ⟨submissions.take 7, some 0, _, _, .running, submissions.drop 8, rfl, by decide +kernel⟩
  have hcancelled : Accepted Backend.secp256k1 submissions 0 3 :=
    ⟨submissions.take 8, some 0, _, _, .running, [], rfl, by decide +kernel⟩
  have hdone : ∀ r ∈ [1, 2], Answered (run Backend.secp256k1 .empty submissions) r := by
    intro r hr
    rw [answered_iff]
    revert r
    decide +kernel
  have hruns := completes Backend.secp256k1 submissions
  refine ⟨by decide +kernel, ?_, ?_, ?_, ?_, ?_⟩
  · exact hruns.called 0 0 hverified completions (by decide)
  · exact hruns.called_at_once 0 1 hrejected (hdone 1 (by simp)) completions (by decide)
  · exact hruns.called_at_once 1 2 hrefused (hdone 2 (by simp)) completions (by decide)
  · -- The drains have ended.
    have hone := (completes Backend.secp256k1 (submissions ++ completions)).exactly_once 0 3
      (hcancelled.append completions) (by decide +kernel) []
    rwa [List.append_nil] at hone
  · exact hruns.raised 0 (some 0) _ _ true .running (.fault .released) (by decide +kernel)
      completions.tail 4 (by decide +kernel) (by decide +kernel)

end SecpKey.Verifier.State
