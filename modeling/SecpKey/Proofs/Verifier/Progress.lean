/-
  SecpKey.Proofs.Verifier.Progress

  How one request goes on.  A request that is there stays there (`Effect.remains`), and its
  future changes once, by a cancellation or an answer (`Effect.future?`).  So what its completing
  events bring about lasts: the answer (`Answered`), the report (`Reported`), and that it has
  left its pending set (`HasLeft`).  A run in which these events occur in their order completes
  the request, whatever else occurs (`Sound.completed_submitted`, `Sound.completed_awaited`).
-/
import SecpKey.Proofs.Verifier.Soundness

namespace SecpKey.Verifier.State

variable {P : Type} {backend : Backend P} {s t : State P} {e : Event} {v r : Nat}
  {request : Request P} {future : Future P}

/-! ## The future of a request -/

theorem Changed.future? {before after : Request P} {q : Nat} (h : Changed s t q before after)
    (hfuture : s.future? r = some future) : t.future? r = some future
      ∨ q = r ∧ before.future = some future ∧ t.future? r = after.future := by
  rw [State.future?, h.requests]
  split
  · next heq =>
    subst heq
    rw [State.future?, h.found, Option.bind_some] at hfuture
    exact .inr ⟨rfl, hfuture, rfl⟩
  · exact .inl hfuture

theorem Made.future? {made : Request P} (h : Made s t v made)
    (hfuture : s.future? r = some future) : t.future? r = some future := by
  obtain ⟨request, hr, hf⟩ := Option.bind_eq_some_iff.mp hfuture
  rw [State.future?, h.request?_of_some hr]
  exact hf

theorem Dropped.future? {q : Nat} {before : Request P} (h : Dropped s t v q before)
    (hfuture : s.future? r = some future) : t.future? r = some future := by
  rcases h.toChanged.future? hfuture with hsame | ⟨-, hf, hafter⟩
  · exact hsame
  · rw [hafter, ← hf]
    rfl

theorem Discarded.future? (h : Discarded s t v) (r : Nat) : t.future? r = s.future? r := by
  rw [State.future?, State.future?, h.requests]
  split
  · cases s.request? r with
    | none => rfl
    | some request => rfl
  · rfl

/-- Only a cancellation or an answer changes a future, and only one that is open. -/
theorem Effect.future? (h : Effect backend s e t) (hfuture : s.future? r = some future) :
    t.future? r = some future
      ∨ ∃ job, future = .scheduled job ∧ (e = .cancel r ∧ t.future? r = some .cancelled
        ∨ t.future? r = some (.done (job.run backend s.buffers))) := by
  cases h with
  | aside h =>
      left
      rw [State.future?, h.request?]
      exact hfuture
  | submitted _ _ h => exact .inl (h.future? hfuture)
  | stranded h => exact .inl (h.future? hfuture)
  | awaited h => exact .inl (h.future? hfuture)
  | @cancelled _ q request job hscheduled h _ _ =>
      rcases h.future? hfuture with hsame | ⟨rfl, hf, hafter⟩
      · exact .inl hsame
      · obtain rfl := Option.some.inj (hscheduled.symm.trans hf)
        exact .inr ⟨job, rfl, .inl ⟨rfl, hafter⟩⟩
  | @answered _ q request job hscheduled h _ _ =>
      rcases h.future? hfuture with hsame | ⟨-, hf, hafter⟩
      · exact .inl hsame
      · obtain rfl := Option.some.inj (hscheduled.symm.trans hf)
        exact .inr ⟨job, rfl, .inr hafter⟩
  | reported _ _ _ h _ _ =>
      rcases h.future? hfuture with hsame | ⟨-, hf, hafter⟩
      · exact .inl hsame
      · exact .inl (hafter.trans hf)
  | finished _ _ h => exact .inl (h.future? hfuture)
  | resumed _ _ h => exact .inl (h.future? hfuture)
  | discarded h => exact .inl ((h.future? r).trans hfuture)

/-- A future is not taken away. -/
theorem Effect.hasFuture (h : Effect backend s e t) (hfuture : s.hasFuture r = true) :
    t.hasFuture r = true := by
  rw [hasFuture_eq] at hfuture ⊢
  obtain ⟨future, hfuture⟩ := Option.isSome_iff_exists.mp hfuture
  rcases h.future? hfuture with hsame | ⟨job, -, hchange⟩
  · rw [hsame, Option.isSome_some]
  rcases hchange with ⟨-, hcancelled⟩ | hdone
  · rw [hcancelled, Option.isSome_some]
  · rw [hdone, Option.isSome_some]

/-! ## One request before and after a step -/

/-- How a request goes on: its mark is not taken back, and its future is not scheduled anew. -/
structure Succeeds (before after : Request P) : Prop where
  origin : after.origin = before.origin
  completed : before.completed = true → after.completed = true
  future : after.future = before.future ∨ ∀ job, after.future ≠ some (.scheduled job)

theorem Succeeds.refl (request : Request P) : Succeeds request request := ⟨rfl, id, .inl rfl⟩

theorem succeeds_release (request : Request P) : Succeeds request request.release :=
  ⟨rfl, id, .inl rfl⟩

theorem Changed.remains {q : Nat} {before after : Request P} (h : Changed s t q before after)
    (hnext : Succeeds before after) (hr : s.request? r = some request) :
    ∃ changed, t.request? r = some changed ∧ Succeeds request changed := by
  by_cases hq : r = q
  · subst hq
    obtain rfl := Option.some.inj (h.found.symm.trans hr)
    exact ⟨after, by rw [h.requests, if_pos rfl], hnext⟩
  · exact ⟨request, by rw [h.requests, if_neg hq, hr], .refl request⟩

theorem Discarded.remains (h : Discarded s t v) (hr : s.request? r = some request) :
    ∃ changed, t.request? r = some changed ∧ Succeeds request changed := by
  rw [h.requests, hr]
  split
  · exact ⟨request.release, rfl, succeeds_release request⟩
  · exact ⟨request, rfl, .refl request⟩

/-- A request that was there is there after a step. -/
theorem Effect.remains (h : Effect backend s e t) (hr : s.request? r = some request) :
    ∃ changed, t.request? r = some changed ∧ Succeeds request changed := by
  cases h with
  | aside h => exact ⟨request, (h.request? r).trans hr, .refl request⟩
  | submitted _ _ h => exact ⟨request, h.request?_of_some hr, .refl request⟩
  | stranded h => exact ⟨request, h.request?_of_some hr, .refl request⟩
  | awaited h => exact ⟨request, h.request?_of_some hr, .refl request⟩
  | cancelled _ h _ _ => exact h.remains ⟨rfl, id, .inr fun _ h => nomatch h⟩ hr
  | answered _ h _ _ => exact h.remains ⟨rfl, id, .inr fun _ h => nomatch h⟩ hr
  | reported _ _ _ h _ _ => exact h.remains ⟨rfl, fun _ => rfl, .inl rfl⟩ hr
  | finished _ _ h => exact h.toChanged.remains (succeeds_release _) hr
  | resumed _ _ h => exact h.toChanged.remains (succeeds_release _) hr
  | discarded h => exact h.remains hr

theorem Made.enters {made : Request P} (h : Made s t v made) {w : Nat}
    (hpending : t.IsPending w r) :
    s.IsPending w r ∨ r = s.requests.length ∧ (t.request? r).isSome = true := by
  refine (h.isPending.mp hpending).imp_right fun ⟨_, hr⟩ => ⟨hr, ?_⟩
  rw [h.request?, if_pos hr]
  rfl

/-- Only a request that is new enters a pending set. -/
theorem Effect.enters (h : Effect backend s e t) (hpending : t.IsPending v r) :
    s.IsPending v r ∨ r = s.requests.length ∧ (t.request? r).isSome = true := by
  cases h with
  | aside h => exact .inl ((isPending_congr (h.pending v) r).mp hpending)
  | submitted _ _ h => exact h.enters hpending
  | stranded h => exact h.enters hpending
  | awaited h => exact h.enters hpending
  | cancelled _ _ _ h => exact .inl ((isPending_congr (h v) r).mp hpending)
  | answered _ _ _ h => exact .inl ((isPending_congr (h v) r).mp hpending)
  | reported _ _ _ _ _ h => exact .inl ((isPending_congr (h v) r).mp hpending)
  | finished _ _ h => exact .inl (h.isPending.mp hpending).1
  | resumed _ _ h => exact .inl (h.isPending.mp hpending).1
  | discarded h => exact .inl (h.isPending.mp hpending).1

/-! ## Stages of a request -/

/-- Request `r` is waited for by `origin`. -/
def Awaits (s : State P) (r : Nat) (origin : Origin) : Prop :=
  ∃ request, s.request? r = some request ∧ request.origin = origin

/-- The future of request `r` will not change any more. -/
def Answered (s : State P) (r : Nat) : Prop :=
  ∃ future, s.future? r = some future ∧ future.isDone = true

theorem answered_iff : s.Answered r ↔ (s.future? r).map Future.isDone = some true := by
  rw [Answered, Option.map_eq_some_iff]

/-- The completion of request `r` has run. -/
def Reported (s : State P) (v r : Nat) : Prop :=
  ∃ request, s.request? r = some request ∧ request.origin = .submitted v
    ∧ request.completed = true

/-- Request `r` has left the pending set of verifier `v`. -/
def HasLeft (s : State P) (v r : Nat) : Prop :=
  (s.request? r).isSome = true ∧ ¬ s.IsPending v r

theorem Awaits.step {origin : Origin} (ha : Awaits s r origin) (h : Effect backend s e t) :
    Awaits t r origin := by
  obtain ⟨request, hr, horigin⟩ := ha
  obtain ⟨changed, hchanged, hnext⟩ := h.remains hr
  exact ⟨changed, hchanged, hnext.origin.trans horigin⟩

theorem Answered.step (ha : Answered s r) (h : Effect backend s e t) : Answered t r := by
  obtain ⟨future, hfuture, hdone⟩ := ha
  rcases h.future? hfuture with hsame | ⟨job, rfl, -⟩
  · exact ⟨future, hsame, hdone⟩
  · cases hdone

theorem Reported.step (hr : Reported s v r) (h : Effect backend s e t) : Reported t v r := by
  obtain ⟨request, hr, horigin, hcompleted⟩ := hr
  obtain ⟨changed, hchanged, hnext⟩ := h.remains hr
  exact ⟨changed, hchanged, hnext.origin.trans horigin, hnext.completed hcompleted⟩

theorem HasLeft.step (hl : HasLeft s v r) (h : Effect backend s e t) : HasLeft t v r := by
  obtain ⟨hsome, hnot⟩ := hl
  obtain ⟨request, hr⟩ := Option.isSome_iff_exists.mp hsome
  obtain ⟨changed, hchanged, -⟩ := h.remains hr
  refine ⟨by rw [hchanged]; rfl, fun hpending => ?_⟩
  rcases h.enters hpending with hold | ⟨hnew, -⟩
  · exact hnot hold
  · exact absurd hnew (Nat.ne_of_lt (lt_length_of_request? hr))

/-- Whoever is pending and has a future stays pending, unless that is a submission that finishes
or a coroutine that goes on. -/
theorem Effect.stays (h : Effect backend s e t) (hpending : s.IsPending v r)
    (hfuture : s.hasFuture r = true) (hfinish : e = .finish r → ∀ w, ¬ Awaits s r (.submitted w))
    (hresume : e = .resume r → ∀ w, ¬ Awaits s r (.awaited w)) : t.IsPending v r := by
  cases h with
  | aside h => exact (isPending_congr (h.pending v) r).mpr hpending
  | submitted _ _ h => exact h.isPending.mpr (.inl hpending)
  | stranded h => exact h.isPending.mpr (.inl hpending)
  | awaited h => exact h.isPending.mpr (.inl hpending)
  | cancelled _ _ _ hsame => exact (isPending_congr (hsame v) r).mpr hpending
  | answered _ _ _ hsame => exact (isPending_congr (hsame v) r).mpr hpending
  | reported _ _ _ _ _ hsame => exact (isPending_congr (hsame v) r).mpr hpending
  | finished horigin _ h =>
      refine h.isPending.mpr ⟨hpending, ?_⟩
      rintro ⟨-, rfl⟩
      exact hfinish rfl _ ⟨_, h.found, horigin⟩
  | resumed horigin _ h =>
      refine h.isPending.mpr ⟨hpending, ?_⟩
      rintro ⟨-, rfl⟩
      exact hresume rfl _ ⟨_, h.found, horigin⟩
  | discarded h => exact ((h.spares hfuture).2 v).mpr hpending

theorem Awaits.unique {origin origin' : Origin} (h : Awaits s r origin) (h' : Awaits s r origin') :
    origin = origin' := by
  obtain ⟨request, hr, rfl⟩ := h
  obtain ⟨x, hx, rfl⟩ := h'
  rw [Option.some.inj (hr.symm.trans hx)]

/-! ## What brings them about -/

/-- After its answer, unless that came too late, the future of a request is done. -/
theorem answered_work (h : (s.future? r).isSome = true) : Answered (s.work backend r) r := by
  obtain ⟨future, hfuture⟩ := Option.isSome_iff_exists.mp h
  obtain ⟨request, hr, hf⟩ := Option.bind_eq_some_iff.mp hfuture
  cases future with
  | scheduled job =>
      refine ⟨.done (job.run backend s.buffers), ?_, rfl⟩
      simp only [work, hr, hf]
      rw [future?, request?_setRequest hr, if_pos rfl]
      rfl
  | done outcome =>
      refine ⟨.done outcome, ?_, rfl⟩
      simp only [work, hr, hf]
      exact hfuture
  | cancelled =>
      refine ⟨.cancelled, ?_, rfl⟩
      simp only [work, hr, hf]
      exact hfuture

theorem exists_told (h : future.isDone = true) :
    ∃ error result, told future = some (error, result) := by
  cases future with
  | scheduled job => cases h
  | cancelled => exact ⟨_, _, rfl⟩
  | done outcome =>
      cases outcome with
      | error e => exact ⟨_, _, rfl⟩
      | ok result => exact ⟨_, _, rfl⟩

theorem reported_report (hv : Awaits s r (.submitted v)) (ha : Answered s r) :
    Reported (s.report r) v r := by
  obtain ⟨request, hr, horigin⟩ := hv
  obtain ⟨future, hfuture, hdone⟩ := ha
  rw [future?, hr, Option.bind_some] at hfuture
  obtain ⟨error, result, htold⟩ := exists_told hdone
  cases hcompleted : request.completed with
  | true =>
      refine ⟨request, ?_, horigin, hcompleted⟩
      simp only [report, hr, horigin, hcompleted]
  | false =>
      refine ⟨{ request with completed := true }, ?_, horigin, rfl⟩
      simp only [report, hr, horigin, hcompleted, hfuture, Option.bind_some, htold]
      split
      · exact (request?_setRequest hr _ r).trans (if_pos rfl)
      · exact (request?_setRequest hr _ r).trans (if_pos rfl)

theorem hasLeft_drop (hr : s.request? r = some request) : HasLeft (s.drop v r) v r := by
  refine ⟨?_, ?_⟩
  · cases hv : s.verifier? v with
    | none =>
        rw [drop_of_no_verifier hv, hr]
        rfl
    | some ver =>
        rw [request?_drop (by rw [hv]; rfl), if_pos rfl, hr]
        rfl
  · rw [isPending_iff, pendingOf_drop hr, if_pos rfl]
    simp

theorem hasLeft_finish (hr : Reported s v r) : HasLeft (s.finish r) v r := by
  obtain ⟨request, hr, horigin, hcompleted⟩ := hr
  have hfinish : s.finish r = s.drop v r := by simp only [finish, hr, horigin, hcompleted]
  rw [hfinish]
  exact hasLeft_drop hr

/-- Once the answer is there, a coroutine that still waits for it goes on. -/
theorem resume_of_answered (hv : Awaits s r (.awaited v)) (ha : Answered s r)
    (hpending : s.IsPending v r) : ∃ outcome, (s.future? r).bind handed = some outcome
      ∧ s.resume r = (some outcome, s.drop v r) := by
  obtain ⟨request, hr, horigin⟩ := hv
  obtain ⟨future, hfuture, hdone⟩ := ha
  obtain ⟨outcome, hhanded⟩ : ∃ outcome, handed future = some outcome := by
    cases future with
    | scheduled job => cases hdone
    | cancelled => exact ⟨_, rfl⟩
    | done outcome => exact ⟨_, rfl⟩
  have hfuture' : request.future = some future := by
    rw [future?, hr, Option.bind_some] at hfuture
    exact hfuture
  refine ⟨outcome, by rw [hfuture, Option.bind_some, hhanded], ?_⟩
  have hcontains : (s.pendingOf v).contains r = true :=
    List.contains_iff_mem.mpr (isPending_iff.mp hpending)
  simp only [resume, hr, horigin, hfuture', Option.bind_some, hhanded, contains_pendingOf,
    hcontains, if_true]

theorem hasLeft_resume (hv : Awaits s r (.awaited v)) (ha : Answered s r) :
    HasLeft (s.resume r).2 v r := by
  obtain ⟨request, hr, horigin⟩ := hv
  by_cases hpending : s.IsPending v r
  · obtain ⟨outcome, -, hresume⟩ := resume_of_answered ⟨request, hr, horigin⟩ ha hpending
    rw [hresume]
    exact hasLeft_drop hr
  · have hresume : s.resume r = (none, s) := by
      rcases s.resume_eq_or r with hsame | ⟨w, x, -, hx, hw, -, hw', -⟩
      · exact hsame
      · obtain rfl := Option.some.inj (hr.symm.trans hx)
        obtain rfl := Origin.awaited.inj (horigin.symm.trans hw)
        exact absurd hw' hpending
    rw [hresume]
    exact ⟨by rw [hr]; rfl, hpending⟩

/-! ## Completion -/

/-- The events that complete request `r`, in their order. -/
def completion (r : Nat) : Origin → List Event
  | .client | .stranded _ => []
  | .submitted _ => [.work r, .report r, .finish r]
  | .awaited _ => [.work r, .resume r]

/-- Whatever holds until an event and is brought about by it holds at the end of a run. -/
theorem Sound.run_mem {p q : State P → Prop} (hs : Sound s) (hp : p s)
    (hkeep : ∀ {s t : State P} {e : Event}, Effect backend s e t → Sound s → p s → p t)
    (hact : ∀ {s : State P}, Sound s → p s → q (s.apply backend e))
    (hkeep' : ∀ {s t : State P} {e : Event}, Effect backend s e t → Sound s → q s → q t)
    {later : List Event} (he : e ∈ later) : q (s.run backend later) := by
  obtain ⟨before, after, rfl⟩ := List.append_of_mem he
  rw [run_append]
  have hbefore : Sound (s.run backend before) := hs.run before
  have hp' : p (s.run backend before) :=
    hs.run_induction p hp before fun _ heffect hs hp => hkeep heffect hs hp
  have hnext := hbefore.step (effect backend _ e)
  exact hnext.run_induction q (hact hbefore hp') after fun _ heffect hs hq =>
    hkeep' heffect hs hq

/-- Whoever waits for a verifier has a future. -/
theorem Sound.isSome_future? {origin : Origin} (hs : Sound s) (hv : Awaits s r origin)
    (hhost : origin.host? = some v) : (s.future? r).isSome = true := by
  obtain ⟨request, hr, rfl⟩ := hv
  rw [← hasFuture_eq]
  exact hs.hasFuture hr hhost

/-- The answer to a request arrives, unless the request was cancelled. -/
theorem Sound.answered_of_mem {origin : Origin} (hs : Sound s) (hv : Awaits s r origin)
    (hhost : origin.host? = some v) {events : List Event} (hwork : .work r ∈ events) :
    Awaits (s.run backend events) r origin ∧ Answered (s.run backend events) r := by
  refine hs.run_mem (p := fun s => Awaits s r origin)
    (q := fun s => Awaits s r origin ∧ Answered s r) hv (fun h _ hv => hv.step h)
    (fun {s} hs hv => ?_) (fun h _ hq => ⟨hq.1.step h, hq.2.step h⟩) hwork
  exact ⟨hv.step (effect backend s (.work r)), answered_work (hs.isSome_future? hv hhost)⟩

/-- A submission whose future is done is reported when its completion runs. -/
theorem Sound.reported_of_mem (hs : Sound s) (hv : Awaits s r (.submitted v)) (ha : Answered s r)
    {events : List Event} (hreport : .report r ∈ events) : Reported (s.run backend events) v r :=
  hs.run_mem (e := .report r) (p := fun s => Awaits s r (.submitted v) ∧ Answered s r)
    (q := fun s => Reported s v r) ⟨hv, ha⟩ (fun h _ ha => ⟨ha.1.step h, ha.2.step h⟩)
    (fun _ ha => reported_report ha.1 ha.2) (fun h _ hr => hr.step h) hreport

/-- An answer that arrives and is reported after that. -/
theorem Sound.reported_of_sublist (hs : Sound s) (hv : Awaits s r (.submitted v))
    {later : List Event} (h : [.work r, .report r].Sublist later) :
    Reported (s.run backend later) v r := by
  -- The run falls apart where the answer arrives.
  obtain ⟨first, second, rfl, hwork, hrest⟩ := List.cons_sublist_iff.mp h
  have hfirst : Awaits (s.run backend first) r (.submitted v) ∧ Answered (s.run backend first) r :=
    hs.answered_of_mem hv rfl hwork
  rw [run_append]
  exact (hs.run first).reported_of_mem hfirst.1 hfirst.2 (hrest.subset List.mem_cons_self)

/-- A submission whose completing events occur in their order is completed and leaves. -/
theorem Sound.completed_submitted (hs : Sound s) (hv : Awaits s r (.submitted v))
    {later : List Event} (h : (completion r (.submitted v)).Sublist later) :
    Reported (s.run backend later) v r ∧ HasLeft (s.run backend later) v r := by
  -- It is reported in the first part of the run, and finishes in the second.
  have h : ([.work r, .report r] ++ [.finish r] : List Event).Sublist later := h
  obtain ⟨first, second, rfl, hreport, hfinish⟩ := List.append_sublist_iff.mp h
  have hreported : Reported (s.run backend first) v r := hs.reported_of_sublist hv hreport
  rw [run_append]
  refine (hs.run first).run_mem (e := .finish r) (p := fun s => Reported s v r)
    (q := fun s => Reported s v r ∧ HasLeft s v r) hreported (fun h _ hr => hr.step h)
    (fun {s} _ hr => ?_) (fun h _ hr => ⟨hr.1.step h, hr.2.step h⟩)
    (List.singleton_sublist.mp hfinish)
  exact ⟨hr.step (effect backend s (.finish r)), hasLeft_finish hr⟩

/-- So does the request of a coroutine. -/
theorem Sound.completed_awaited (hs : Sound s) (hv : Awaits s r (.awaited v))
    {later : List Event} (h : (completion r (.awaited v)).Sublist later) :
    HasLeft (s.run backend later) v r := by
  obtain ⟨first, second, rfl, hwork, hrest⟩ := List.cons_sublist_iff.mp h
  have hresume : .resume r ∈ second := hrest.subset List.mem_cons_self
  rw [run_append]
  exact (hs.run first).run_mem (e := .resume r)
    (p := fun s => Awaits s r (.awaited v) ∧ Answered s r)
    (q := fun s => HasLeft s v r) (hs.answered_of_mem hv rfl hwork)
    (fun h _ ha => ⟨ha.1.step h, ha.2.step h⟩) (fun _ ha => hasLeft_resume ha.1 ha.2)
    (fun h _ hl => hl.step h) hresume

end SecpKey.Verifier.State
