/-
  SecpKey.Proofs.Verifier.Effect

  What one step does to requests, pending sets and calls, read off the ways it can go.  `Effect`
  has a rule for each of the ways that touch any of the three; all others leave them as they
  were (`Same`).  What is kept along a run is shown by cases on these rules.
-/
import SecpKey.Proofs.Verifier.Step

namespace SecpKey.Verifier.State

variable {P : Type} {backend : Backend P} {s t : State P} {e : Event} {v w r q : Nat}
  {request : Request P}

/-! ## Kinds of change -/

/-- Requests, pending sets and calls are as before. -/
structure Same (s t : State P) : Prop where
  requests : t.requests = s.requests
  calls : t.calls = s.calls
  pending : ∀ w, t.pendingOf w = s.pendingOf w

/-- A request was added, and is pending. -/
structure Made (s t : State P) (v : Nat) (request : Request P) : Prop where
  requests : t.requests = s.requests ++ [request]
  calls : t.calls = s.calls
  pending : ∀ w, t.pendingOf w
    = if w = v then s.pendingOf w ++ [s.requests.length] else s.pendingOf w

/-- Request `r` became `changed`, and the others are as before. -/
structure Changed (s t : State P) (r : Nat) (request changed : Request P) : Prop where
  found : s.request? r = some request
  requests : ∀ q, t.request? q = if q = r then some changed else s.request? q

/-- Request `r` is no longer pending, and released. -/
structure Dropped (s t : State P) (v r : Nat) (request : Request P) : Prop
    extends Changed s t r request request.release where
  calls : t.calls = s.calls
  pending : ∀ w, t.pendingOf w
    = if w = v then (s.pendingOf w).filter (· != r) else s.pendingOf w

/-- Everybody who was pending with verifier `v` was without a future, and is released. -/
structure Discarded (s t : State P) (v : Nat) : Prop where
  futureless : ∀ q ∈ s.pendingOf v, s.hasFuture q = false
  requests : ∀ q, t.request? q
    = if q ∈ s.pendingOf v then (s.request? q).map .release else s.request? q
  calls : t.calls = s.calls
  pending : ∀ w, t.pendingOf w
    = if w = v then (s.pendingOf w).filter (fun q => (s.request? q).isNone) else s.pendingOf w

/-- What a step can do to requests, pending sets and calls. -/
inductive Effect (backend : Backend P) (s : State P) : Event → State P → Prop
  | aside {e : Event} {t : State P} (h : Same s t) : Effect backend s e t
  | submitted {t : State P} {v : Nat} {ver : Verifier} {key : Option Nat}
      {digest signature : Held} {callback : Bool} {loop : EventLoop}
      (hopen : s.openOne v = .ok ver)
      (hlate : late loop (s.submission ver v key digest signature callback loop).1 = none)
      (h : Made s t v (s.submission ver v key digest signature callback loop).2) :
      Effect backend s (.submit v key digest signature callback loop) t
  | stranded {t : State P} {v : Nat} {ver : Verifier} {key : Option Nat}
      {digest signature : Held} {callback : Bool} {loop : EventLoop}
      (h : Made s t v ((s.submission ver v key digest signature callback loop).2.strand v)) :
      Effect backend s (.submit v key digest signature callback loop) t
  | awaited {t : State P} {v : Nat} {key : Option Nat} {digest signature : Held} {Q : P}
      {d b : Bytes} (h : Made s t v (awaiting v key Q d b)) :
      Effect backend s (.await v key digest signature) t
  | cancelled {t : State P} {r : Nat} {request : Request P} {job : Job P}
      (hfuture : request.future = some (.scheduled job))
      (h : Changed s t r request { request with future := some .cancelled })
      (hcalls : t.calls = s.calls) (hpending : ∀ w, t.pendingOf w = s.pendingOf w) :
      Effect backend s (.cancel r) t
  | answered {t : State P} {r : Nat} {request : Request P} {job : Job P}
      (hfuture : request.future = some (.scheduled job))
      (h : Changed s t r request
        { request with future := some (.done (job.run backend s.buffers)) })
      (hcalls : t.calls = s.calls) (hpending : ∀ w, t.pendingOf w = s.pendingOf w) :
      Effect backend s (.work r) t
  | reported {t : State P} {r v : Nat} {request : Request P} {error : Option Failure}
      {result : Option VerifyResult} (horigin : request.origin = .submitted v)
      (hopen : request.completed = false) (htold : request.future.bind told = some (error, result))
      (h : Changed s t r request { request with completed := true })
      (hcalls : t.calls
        = s.calls ++ if request.callback then [⟨r, error, result, s.pendingCount v⟩] else [])
      (hpending : ∀ w, t.pendingOf w = s.pendingOf w) : Effect backend s (.report r) t
  | finished {t : State P} {r v : Nat} {request : Request P}
      (horigin : request.origin = .submitted v) (hcompleted : request.completed = true)
      (h : Dropped s t v r request) : Effect backend s (.finish r) t
  | resumed {t : State P} {r v : Nat} {request : Request P}
      {outcome : Except Failure VerifyResult} (horigin : request.origin = .awaited v)
      (hhanded : request.future.bind handed = some outcome)
      (h : Dropped s t v r request) : Effect backend s (.resume r) t
  | discarded {e : Event} {t : State P} {v : Nat} (h : Discarded s t v) : Effect backend s e t

/-! ## Requests before and after a step -/

theorem Same.request? (h : Same s t) (q : Nat) : t.request? q = s.request? q := by
  rw [State.request?, State.request?, h.requests]

theorem Made.request? (h : Made s t v request) (q : Nat) :
    t.request? q = if q = s.requests.length then some request else s.request? q :=
  request?_concat h.requests q

/-- A request that was there is as it was. -/
theorem Made.request?_of_some {made : Request P} (h : Made s t v made)
    (hr : s.request? r = some request) : t.request? r = some request := by
  rw [h.request?, if_neg (Nat.ne_of_lt (lt_length_of_request? hr)), hr]

theorem Made.isPending (h : Made s t v request) :
    t.IsPending w q ↔ s.IsPending w q ∨ w = v ∧ q = s.requests.length := by
  rw [isPending_iff, isPending_iff, h.pending]
  split
  · next hw => simp [hw]
  · next hw => simp [hw]

theorem Dropped.isPending (h : Dropped s t v r request) :
    t.IsPending w q ↔ s.IsPending w q ∧ ¬ (w = v ∧ q = r) := by
  rw [isPending_iff, isPending_iff, h.pending]
  split
  · next hw => simp [hw]
  · next hw => simp [hw]

theorem Discarded.isPending (h : Discarded s t v) :
    t.IsPending w q ↔ s.IsPending w q ∧ ¬ (w = v ∧ (s.request? q).isSome = true) := by
  rw [isPending_iff, isPending_iff, h.pending]
  split
  · next hw => simp [hw]
  · next hw => simp [hw]

/-- Whoever has a future is spared. -/
theorem Discarded.spares (h : Discarded s t v) (hr : s.hasFuture r = true) :
    t.request? r = s.request? r ∧ ∀ w, t.IsPending w r ↔ s.IsPending w r := by
  have hnot : r ∉ s.pendingOf v := by
    intro hmem
    rw [h.futureless r hmem] at hr
    cases hr
  refine ⟨by rw [h.requests, if_neg hnot], fun w => ?_⟩
  rw [h.isPending, isPending_iff]
  constructor
  · exact And.left
  · intro hmem
    refine ⟨hmem, ?_⟩
    rintro ⟨rfl, -⟩
    exact hnot hmem

/-! ## Effects of the ways of a step -/

theorem made_enroll (hv : (s.verifier? v).isSome = true) (request : Request P) :
    Made s (s.enroll v request) v request where
  requests := by rw [enroll_eq]
  calls := by rw [enroll_eq]; rfl
  pending := pendingOf_enroll hv request

theorem changed_setRequest {changed : Request P} (hr : s.request? r = some request) :
    Changed s (s.setRequest r changed) r request changed :=
  ⟨hr, request?_setRequest hr changed⟩

theorem dropped_drop (hv : (s.verifier? v).isSome = true) (hr : s.request? r = some request) :
    Dropped s (s.drop v r) v r request where
  found := hr
  requests q := by
    rw [request?_drop hv]
    split
    · next h =>
      rw [h, hr]
      rfl
    · rfl
  calls := calls_drop s v r
  pending := pendingOf_drop hr v

theorem discarded_dropAll (h : s.isDrained v = true) :
    Discarded s (s.dropAll v (s.pendingOf v)) v where
  futureless _ := hasFuture_of_isDrained h
  requests := request?_dropAll (isSome_verifier?_of_isDrained h) _
  calls := calls_dropAll s v _
  pending w := by
    rw [pendingOf_dropAll (isSome_verifier?_of_isDrained h)]
    split
    · next hw =>
      subst hw
      -- Whoever is in the set is among those who are dropped.
      apply List.filter_congr
      intro q hq
      rw [List.contains_iff_mem.mpr hq, Bool.true_and, Option.not_isSome]
    · rfl

theorem same_close (s : State P) (v : Nat) : Same s (s.close v) :=
  ⟨requests_close s v, calls_close s v, pendingOf_close s v⟩

theorem Discarded.close (h : Discarded s t v) (w : Nat) : Discarded s (t.close w) v where
  futureless := h.futureless
  requests q := (request?_close t w q).trans (h.requests q)
  calls := (calls_close t w).trans h.calls
  pending x := (pendingOf_close t w x).trans (h.pending x)

/-- Nothing else happens in a step. -/
theorem Step.effect (h : Step backend s e t) : Effect backend s e t := by
  cases h with
  | aside ring buffers _ => exact .aside ⟨rfl, rfl, fun _ => rfl⟩
  | lent accepting => exact .aside ⟨rfl, rfl, fun _ => rfl⟩
  | shutDefault => exact .aside ⟨rfl, rfl, fun _ => rfl⟩
  | borrowed pool => exact .aside ⟨rfl, rfl, pendingOf_concat rfl rfl⟩
  | staffed count => exact .aside ⟨rfl, rfl, pendingOf_concat rfl rfl⟩
  | closed v => exact .aside (same_close s v)
  | submitted hopen hlate =>
      exact .submitted hopen hlate (made_enroll (isSome_verifier?_of_openOne hopen) _)
  | stranded hopen hlate =>
      exact .stranded (made_enroll (isSome_verifier?_of_openOne hopen) _)
  | awaited hopen _ _ => exact .awaited (made_enroll (isSome_verifier?_of_openOne hopen) _)
  | cancelled hr hfuture => exact .cancelled hfuture (changed_setRequest hr) rfl fun _ => rfl
  | answered hr hfuture => exact .answered hfuture (changed_setRequest hr) rfl fun _ => rfl
  | reported hr horigin hopen htold =>
      exact .reported horigin hopen htold ⟨hr, request?_setRequest hr _⟩ rfl fun _ => rfl
  | finished hr horigin hcompleted hv =>
      exact .finished horigin hcompleted (dropped_drop hv hr)
  | resumed hr horigin hhanded hpending =>
      obtain ⟨ver, hv, -⟩ := hpending
      exact .resumed horigin hhanded (dropped_drop (by rw [hv]; rfl) hr)
  | drained h => exact .discarded (discarded_dropAll h)
  | left h => exact .discarded ((discarded_dropAll h).close _)

theorem effect (backend : Backend P) (s : State P) (e : Event) :
    Effect backend s e (s.apply backend e) := (step backend s e).effect

/-! ## Calls -/

/-- Only the report of a submission that waits for it makes a call, and one of its own callback. -/
theorem Effect.calls_eq_or (h : Effect backend s e t) : t.calls = s.calls
    ∨ ∃ r v request error result, e = .report r ∧ s.request? r = some request
      ∧ request.origin = .submitted v ∧ request.completed = false
      ∧ t.calls = s.calls ++ [⟨r, error, result, s.pendingCount v⟩] := by
  cases h with
  | aside h => exact .inl h.calls
  | submitted _ _ h => exact .inl h.calls
  | stranded h => exact .inl h.calls
  | awaited h => exact .inl h.calls
  | cancelled _ _ hcalls _ => exact .inl hcalls
  | answered _ _ hcalls _ => exact .inl hcalls
  | @reported _ r v request error result horigin hopen _ h hcalls _ =>
      split at hcalls
      · exact .inr ⟨r, v, request, error, result, rfl, h.found, horigin, hopen, hcalls⟩
      · rw [List.append_nil] at hcalls
        exact .inl hcalls
  | finished _ _ h => exact .inl h.calls
  | resumed _ _ h => exact .inl h.calls
  | discarded h => exact .inl h.calls

end SecpKey.Verifier.State
