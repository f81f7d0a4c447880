/-
  SecpKey.Proofs.Verifier.Accounts

  Who is pending in a run, read off the events alone: what was handed over and has not finished
  since (`Unfinished`), and what a submission that failed too late has left behind, until a drain
  ends (`Stranded`).  `Accounts` says that the pending sets of the state are just these, each
  request once and with all it was handed, and that the others hold nothing.  Every step keeps it
  (`Accounts.step`), and `PendingSets` lists what follows for callbacks, coroutines, refusals and
  drains.
-/
import SecpKey.Proofs.Verifier.Completion
import SecpKey.Proofs.Verifier.Drain
import SecpKey.Proofs.Verifier.Pending

namespace SecpKey.Verifier

/-- The verifier with which a request becomes pending. -/
def Origin.place? : Origin → Option Nat
  | .client => none
  | .submitted v | .awaited v | .stranded v => some v

/-- Whoever is waited for is pending with the verifier that waits. -/
theorem Origin.place?_of_host? {origin : Origin} {v : Nat} (h : origin.host? = some v) :
    origin.place? = some v := by
  cases origin with
  | client => cases h
  | submitted w => exact h
  | awaited w => exact h
  | stranded w => cases h

namespace State

variable {P : Type} {backend : Backend P} {s t : State P} {e : Event} {v w r : Nat}
  {events : List Event} {entry : Entry P} {request : Request P}

/-! ## Who is pending -/

/-- The verification came to verifier `v` as request `r`, and has not gone since. -/
inductive Since (backend : Backend P) (comes : State P → Event → Nat → Nat → Entry P → Prop)
    (goes : State P → Event → Nat → Nat → Prop) : List Event → Nat → Nat → Entry P → Prop
  | comes {events : List Event} {e : Event} {v r : Nat} {entry : Entry P}
      (h : comes (run backend .empty events) e v r entry) :
      Since backend comes goes (events ++ [e]) v r entry
  | stays {events : List Event} {e : Event} {v r : Nat} {entry : Entry P}
      (h : Since backend comes goes events v r entry)
      (hopen : ¬ goes (run backend .empty events) e v r) :
      Since backend comes goes (events ++ [e]) v r entry

/-- The verification was handed over and taken in as request `r` of verifier `v`, and its
completion has not finished since. -/
abbrev Unfinished (backend : Backend P) : List Event → Nat → Nat → Entry P → Prop :=
  Since backend Enters fun s e _ r => Finishes s e r

/-- The verification was left behind as request `r` of verifier `v`, and no drain of the verifier
has ended since. -/
abbrev Stranded (backend : Backend P) : List Event → Nat → Nat → Entry P → Prop :=
  Since backend Strands fun s e v _ => Drains s e v

/-- One or the other. -/
def Present (backend : Backend P) (events : List Event) (v r : Nat) (entry : Entry P) : Prop :=
  Unfinished backend events v r entry ∨ Stranded backend events v r entry

section

variable {comes : State P → Event → Nat → Nat → Entry P → Prop}
  {goes : State P → Event → Nat → Nat → Prop}

theorem not_since_nil : ¬ Since backend comes goes [] v r entry := by
  generalize hnil : ([] : List Event) = events
  rintro (h | ⟨h, -⟩)
  · simp at hnil
  · simp at hnil

/-- Only the last event can make a difference. -/
theorem since_concat_iff : Since backend comes goes (events ++ [e]) v r entry
    ↔ comes (run backend .empty events) e v r entry
      ∨ Since backend comes goes events v r entry ∧ ¬ goes (run backend .empty events) e v r := by
  constructor
  · generalize hconcat : events ++ [e] = all
    rintro (h | ⟨h, hopen⟩)
    · obtain ⟨rfl, hlast⟩ := List.append_inj' hconcat rfl
      obtain rfl := List.head_eq_of_cons_eq hlast
      exact .inl h
    · obtain ⟨rfl, hlast⟩ := List.append_inj' hconcat rfl
      obtain rfl := List.head_eq_of_cons_eq hlast
      exact .inr ⟨h, hopen⟩
  · rintro (h | ⟨h, hopen⟩)
    · exact .comes h
    · exact .stays h hopen

/-- Whatever is true of all that come is true of all that are there. -/
theorem Since.of_comes (h : Since backend comes goes events v r entry) {p : Nat → Entry P → Prop}
    (hp : ∀ {s e v r entry}, comes s e v r entry → p v entry) : p v entry := by
  induction h with
  | comes h => exact hp h
  | stays _ _ ih => exact ih

end

theorem Unfinished.origin (h : Unfinished backend events v r entry) :
    entry.origin = .submitted v ∨ entry.origin = .awaited v := by
  refine h.of_comes (p := fun v entry => entry.origin = .submitted v ∨ entry.origin = .awaited v)
    fun h => ?_
  cases h with
  | submitted _ => exact .inl rfl
  | awaited _ => exact .inr rfl

theorem Unfinished.host? (h : Unfinished backend events v r entry) :
    entry.origin.host? = some v := by
  rcases h.origin with horigin | horigin
  · rw [horigin]
    rfl
  · rw [horigin]
    rfl

theorem Stranded.origin (h : Stranded backend events v r entry) : entry.origin = .stranded v := by
  refine h.of_comes (p := fun v entry => entry.origin = .stranded v) fun h => ?_
  cases h with
  | submitted _ _ => rfl

/-- A verification is handed over to the verifier with which it is pending. -/
theorem Present.place? (h : Present backend events v r entry) : entry.origin.place? = some v := by
  rcases h with h | h
  · exact Origin.place?_of_host? (Unfinished.host? h)
  · rw [Stranded.origin h]
    rfl

theorem present_concat_iff : Present backend (events ++ [e]) v r entry
    ↔ (Enters (run backend .empty events) e v r entry
        ∨ Strands (run backend .empty events) e v r entry)
      ∨ (Unfinished backend events v r entry ∧ ¬ Finishes (run backend .empty events) e r
        ∨ Stranded backend events v r entry ∧ ¬ Drains (run backend .empty events) e v) :=
  (or_congr since_concat_iff since_concat_iff).trans or_or_or_comm

/-! ## Accounts -/

/-- What is pending after some events, and what it holds. -/
structure Accounts (backend : Backend P) (events : List Event) (s : State P) : Prop where
  pending : ∀ v r, s.IsPending v r ↔ ∃ entry, Present backend events v r entry
  nodup : ∀ v, (s.pendingOf v).Nodup
  pinned : ∀ v r entry, Present backend events v r entry → ∃ request,
    s.request? r = some request ∧ Pinned entry request
  cleared : ∀ r request, s.request? r = some request → (∀ v, ¬ s.IsPending v r) → Cleared request

namespace Accounts

theorem empty : Accounts backend [] (.empty : State P) where
  pending v r := by
    constructor
    · rintro ⟨ver, hv, -⟩
      cases hv
    · rintro ⟨entry, h | h⟩
      · exact absurd h not_since_nil
      · exact absurd h not_since_nil
  nodup _ := List.nodup_nil
  pinned _ _ _ h := by
    rcases h with h | h
    · exact absurd h not_since_nil
    · exact absurd h not_since_nil
  cleared _ _ h := nomatch h

/-- A request is pending with one verifier only, the one that it was handed to. -/
theorem place? (ha : Accounts backend events s) (hr : s.request? r = some request)
    (hpending : s.IsPending v r) : request.origin.place? = some v := by
  obtain ⟨entry, hpresent⟩ := (ha.pending v r).mp hpending
  obtain ⟨x, hx, hpinned⟩ := ha.pinned v r entry hpresent
  obtain rfl := Option.some.inj (hr.symm.trans hx)
  rw [hpinned.origin]
  exact hpresent.place?

/-- Whoever is unfinished has a future. -/
theorem hasFuture (ha : Accounts backend events s) (hs : Sound s)
    (h : Unfinished backend events v r entry) : s.hasFuture r = true := by
  obtain ⟨request, hr, hpinned⟩ := ha.pinned v r entry (.inl h)
  refine hs.hasFuture hr (v := v) ?_
  rw [hpinned.origin]
  exact h.host?

theorem kept (ha : Accounts backend events (run backend .empty events))
    (h : Keeps (run backend .empty events) e t) : Accounts backend (events ++ [e]) t := by
  set s := run backend .empty events with hs
  have hsame : ∀ v r, t.IsPending v r ↔ s.IsPending v r := fun v => isPending_congr (h.pending v)
  have hpresent : ∀ v r entry, Present backend (events ++ [e]) v r entry
      ↔ Present backend events v r entry := by
    intro v r entry
    rw [present_concat_iff, ← hs]
    simp only [h.enters, h.strands, h.finishes, h.drains, not_false_eq_true, and_true, false_or]
    rfl
  constructor
  case pending =>
    intro v r
    simp only [hsame, hpresent]
    exact ha.pending v r
  case nodup =>
    intro v
    rw [h.pending]
    exact ha.nodup v
  case pinned =>
    intro v r entry hopen
    obtain ⟨request, hr, hpinned⟩ := ha.pinned v r entry ((hpresent v r entry).mp hopen)
    have hrel := h.requests r
    rw [hr] at hrel
    generalize t.request? r = after at hrel
    cases hrel with
    | some hcontinues => exact ⟨_, rfl, hpinned.continues hcontinues⟩
  case cleared =>
    intro r request hr hnot
    have hrel := h.requests r
    rw [hr] at hrel
    cases hbefore : s.request? r with
    | none =>
        rw [hbefore] at hrel
        cases hrel
    | some before =>
        rw [hbefore] at hrel
        cases hrel with
        | some hcontinues =>
          have hcleared : Cleared before := by
            apply ha.cleared r before hbefore
            exact fun v hv => hnot v ((hsame v r).mpr hv)
          exact hcleared.continues hcontinues

theorem arrived {made : Request P} (ha : Accounts backend events (run backend .empty events))
    (ho : Orderly (run backend .empty events))
    (h : Arrives (run backend .empty events) e t v entry made) :
    Accounts backend (events ++ [e]) t := by
  set s := run backend .empty events with hs
  have hpresent : ∀ w q other, Present backend (events ++ [e]) w q other
      ↔ (w = v ∧ q = s.requests.length ∧ other = entry) ∨ Present backend events w q other := by
    intro w q other
    rw [present_concat_iff, ← hs, h.comes]
    simp only [h.finishes, h.drains, not_false_eq_true, and_true]
    rfl
  constructor
  case pending =>
    intro w q
    rw [h.isPending, ha.pending]
    simp only [hpresent]
    constructor
    · rintro (⟨other, hopen⟩ | ⟨hw, hq⟩)
      · exact ⟨other, .inr hopen⟩
      · exact ⟨entry, .inl ⟨hw, hq, rfl⟩⟩
    · rintro ⟨other, ⟨hw, hq, -⟩ | hopen⟩
      · exact .inr ⟨hw, hq⟩
      · exact .inl ⟨other, hopen⟩
  case nodup =>
    intro w
    rw [h.pending]
    split
    · -- The number is new.
      refine List.nodup_append.mpr ⟨ha.nodup w, List.pairwise_singleton _ _, ?_⟩
      intro q hq q' hq'
      obtain ⟨x, hx⟩ := Option.isSome_iff_exists.mp (ho.found (isPending_iff.mpr hq))
      have hlt := lt_length_of_request? hx
      have hlast := List.mem_singleton.mp hq'
      omega
    · exact ha.nodup w
  case pinned =>
    intro w q other hopen
    rcases (hpresent w q other).mp hopen with ⟨-, rfl, rfl⟩ | hold
    · exact ⟨made, by rw [h.request?, if_pos rfl], h.pinned⟩
    · obtain ⟨request, hr, hpinned⟩ := ha.pinned w q other hold
      exact ⟨request, h.request?_of_some hr, hpinned⟩
  case cleared =>
    intro q request hr hnot
    rw [h.request?] at hr
    split at hr
    -- The new request is pending, so there is nothing to say of it.
    · next hq => exact absurd (h.isPending.mpr (.inr ⟨rfl, hq⟩)) (hnot v)
    · exact ha.cleared q request hr fun w hw => hnot w (h.isPending.mpr (.inl hw))

theorem left {request : Request P} (ha : Accounts backend events (run backend .empty events))
    (h : Leaves (run backend .empty events) e t v r request) :
    Accounts backend (events ++ [e]) t := by
  set s := run backend .empty events with hs
  have hplace := Origin.place?_of_host? h.host
  have hpending : ∀ w q, t.IsPending w q ↔ s.IsPending w q ∧ q ≠ r := by
    intro w q
    rw [h.isPending]
    -- The request that leaves was pending with its own verifier only.
    refine and_congr_right fun hw => not_congr ⟨And.right, ?_⟩
    rintro rfl
    exact ⟨Option.some.inj ((ha.place? h.found hw).symm.trans hplace), rfl⟩
  have hpresent : ∀ w q other, Present backend (events ++ [e]) w q other
      ↔ Present backend events w q other ∧ q ≠ r := by
    intro w q other
    rw [present_concat_iff, ← hs]
    simp only [h.enters, h.strands, h.finishes, h.drains, not_false_eq_true, and_true, false_or]
    -- Whoever was left behind is not the one that leaves: that one was waited for.
    have hother : Stranded backend events w q other → q ≠ r := by
      rintro hstranded rfl
      obtain ⟨x, hx, hpinned⟩ := ha.pinned w q other (.inr hstranded)
      obtain rfl := Option.some.inj (h.found.symm.trans hx)
      have hhost := h.host
      rw [hpinned.origin, hstranded.origin] at hhost
      cases hhost
    rw [Present, or_and_right]
    exact or_congr_right (iff_self_and.mpr hother)
  constructor
  case pending =>
    intro w q
    rw [hpending, ha.pending]
    simp only [hpresent, exists_and_right]
  case nodup =>
    intro w
    rw [h.pending]
    split
    · exact (ha.nodup w).filter _
    · exact ha.nodup w
  case pinned =>
    intro w q other hopen
    obtain ⟨hold, hne⟩ := (hpresent w q other).mp hopen
    obtain ⟨x, hx, hpinned⟩ := ha.pinned w q other hold
    exact ⟨x, by rw [h.requests, if_neg hne, hx], hpinned⟩
  case cleared =>
    intro q x hx hnot
    rw [h.requests] at hx
    split at hx
    · obtain rfl := Option.some.inj hx
      exact cleared_release request
    · next hne => exact ha.cleared q x hx fun w hw => hnot w ((hpending w q).mpr ⟨hw, hne⟩)

theorem emptied (ha : Accounts backend events (run backend .empty events))
    (ho : Orderly (run backend .empty events)) (h : Empties (run backend .empty events) e t v) :
    Accounts backend (events ++ [e]) t := by
  set s := run backend .empty events with hs
  have hpending : ∀ w q, t.IsPending w q ↔ s.IsPending w q ∧ w ≠ v := by
    intro w q
    rw [h.isPending]
    refine and_congr_right fun hw => not_congr ⟨And.left, fun heq => ⟨heq, ho.found hw⟩⟩
  have hpresent : ∀ w q other, Present backend (events ++ [e]) w q other
      ↔ Present backend events w q other ∧ w ≠ v := by
    intro w q other
    rw [present_concat_iff, ← hs]
    simp only [h.enters, h.strands, h.finishes, h.drains, not_false_eq_true, and_true, false_or]
    -- The drain could not have ended with somebody unfinished.
    have hother : Unfinished backend events w q other → w ≠ v := by
      rintro hunfinished rfl
      have hmem := isPending_iff.mp ((ha.pending w q).mpr ⟨other, .inl hunfinished⟩)
      have hnone := h.futureless q hmem
      rw [ha.hasFuture ho.sound hunfinished] at hnone
      cases hnone
    rw [Present, or_and_right]
    exact or_congr_left (iff_self_and.mpr hother)
  constructor
  case pending =>
    intro w q
    rw [hpending, ha.pending]
    simp only [hpresent, exists_and_right]
  case nodup =>
    intro w
    rw [h.pending]
    split
    · exact (ha.nodup w).filter _
    · exact ha.nodup w
  case pinned =>
    intro w q other hopen
    obtain ⟨hold, hne⟩ := (hpresent w q other).mp hopen
    obtain ⟨x, hx, hpinned⟩ := ha.pinned w q other hold
    refine ⟨x, ?_, hpinned⟩
    rw [h.requests, if_neg, hx]
    -- It is pending with another verifier than the drained one.
    intro hmem
    have hplace := ha.place? hx (isPending_iff.mpr hmem)
    rw [hpinned.origin, hold.place?] at hplace
    exact hne (Option.some.inj hplace)
  case cleared =>
    intro q x hx hnot
    rw [h.requests] at hx
    split at hx
    · obtain ⟨before, -, rfl⟩ := Option.map_eq_some_iff.mp hx
      exact cleared_release before
    · next hmem =>
      refine ha.cleared q x hx fun w hw => hnot w ((hpending w q).mpr ⟨hw, ?_⟩)
      rintro rfl
      exact hmem (isPending_iff.mp hw)

theorem step (ha : Accounts backend events (run backend .empty events))
    (ho : Orderly (run backend .empty events)) (h : Turn (run backend .empty events) e t) :
    Accounts backend (events ++ [e]) t := by
  cases h with
  | kept h => exact ha.kept h
  | arrived h => exact ha.arrived ho h
  | left h => exact ha.left h
  | emptied h => exact ha.emptied ho h

end Accounts

theorem accounts_run (events : List Event) :
    Accounts backend events (run backend .empty events) := by
  induction events using List.reverseRecOn with
  | nil => exact .empty
  | append_singleton events e ih =>
      rw [run_append]
      exact ih.step (Orderly.run backend events) (turn backend _ e)

/-! ## Inside a callback -/

/-- The request of an unfinished verification is waited for as it was handed over. -/
theorem Unfinished.awaits (h : Unfinished backend events v r entry) :
    Awaits (run backend .empty events) r entry.origin := by
  obtain ⟨request, hr, hpinned⟩ := (accounts_run events).pinned v r entry (.inl h)
  exact ⟨request, hr, hpinned.origin⟩

end State

end SecpKey.Verifier
