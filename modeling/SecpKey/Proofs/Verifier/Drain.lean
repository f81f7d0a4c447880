/-
  SecpKey.Proofs.Verifier.Drain

  What the end of a drain drops.  A client can put a request that it made by hand into a
  pending set (`Move.enlist`); such a request never gets a future, and no completion takes
  it out.  Whoever waits for a verifier has a future in every state of such a run as well
  (`Orderly`), so a drain that may end drops requests made by hand and those that a failed
  submission left behind, and no others.
-/
import SecpKey.Proofs.Verifier.Progress

namespace SecpKey.Verifier.State

variable {P : Type} {backend : Backend P} {s t : State P} {e : Event} {v w r q : Nat}
  {request : Request P}

/-! ## Runs with requests made by hand -/

/-- A step of a run, or a request that is made by hand and put into a pending set. -/
inductive Move where
  | step (e : Event)
  | enlist (verifier : Nat) (key : Option Nat) (digest signature : Held)
  deriving DecidableEq, Repr

/-- The state after one move. -/
def move (backend : Backend P) (s : State P) : Move → State P
  | .step e => s.apply backend e
  | .enlist v key digest signature =>
    let (r, t) := s.makeRequest key digest signature
    t.pend v r

/-- The state after a sequence of moves. -/
def play (backend : Backend P) (moves : List Move) : State P :=
  moves.foldl (move backend) .empty

theorem play_concat (moves : List Move) (m : Move) :
    play backend (moves ++ [m]) = move backend (play backend moves) m := by
  rw [play, List.foldl_append]
  rfl

/-- A verifier that does not exist takes nobody in. -/
theorem isPending_enroll (s : State P) (v : Nat) (request : Request P) (w q : Nat) :
    (s.enroll v request).IsPending w q
      ↔ s.IsPending w q ∨ (s.verifier? v).isSome = true ∧ w = v ∧ q = s.requests.length := by
  rw [isPending_iff, isPending_iff]
  by_cases hv : (s.verifier? v).isSome = true
  · rw [pendingOf_enroll hv]
    split
    · next hw => simp [hw, hv]
    · next hw => simp [hw]
  · have hsame : (s.enroll v request).pendingOf w = s.pendingOf w := by
      rw [enroll_eq, onVerifier_of_none (Option.not_isSome_iff_eq_none.mp hv)]
      rfl
    simp [hsame, hv]

/-- The state is sound, and whoever is pending exists. -/
structure Orderly (s : State P) : Prop where
  sound : Sound s
  found : ∀ {v r}, s.IsPending v r → (s.request? r).isSome = true

namespace Orderly

theorem empty : Orderly (.empty : State P) where
  sound := .empty
  found := by
    rintro v r ⟨ver, hv, -⟩
    cases hv

theorem step (ho : Orderly s) (h : Effect backend s e t) : Orderly t where
  sound := ho.sound.step h
  found hpending := by
    rcases h.enters hpending with hold | ⟨-, hnew⟩
    · obtain ⟨request, hr⟩ := Option.isSome_iff_exists.mp (ho.found hold)
      obtain ⟨changed, hchanged, -⟩ := h.remains hr
      rw [hchanged]
      rfl
    · exact hnew

/-- Nobody waits for a request that is made by hand. -/
theorem enlist (ho : Orderly s) (v : Nat) (request : Request P)
    (hclient : request.origin = .client) : Orderly (s.enroll v request) where
  sound := by
    refine ho.sound.added (by rw [enroll_eq]) (by rw [enroll_eq]; rfl)
      (fun hq => (isPending_enroll s v request _ _).mpr (.inl hq)) fun hw => ?_
    rw [hclient] at hw
    cases hw
  found := by
    intro w q hpending
    rw [request?_enroll]
    split
    · rfl
    · next hne =>
      rcases (isPending_enroll s v request w q).mp hpending with hold | ⟨-, -, hnew⟩
      · exact ho.found hold
      · exact absurd hnew hne

theorem move (ho : Orderly s) (m : Move) : Orderly (s.move backend m) := by
  cases m with
  | step e => exact ho.step (effect backend s e)
  | enlist v key digest signature =>
      exact ho.enlist v (.fresh .client key digest signature false) rfl

theorem play (backend : Backend P) (moves : List Move) : Orderly (State.play backend moves) := by
  induction moves using List.reverseRecOn with
  | nil => exact .empty
  | append_singleton moves m ih =>
      rw [play_concat]
      exact ih.move m

theorem run (backend : Backend P) (events : List Event) :
    Orderly (State.run backend .empty events) := by
  induction events using List.reverseRecOn with
  | nil => exact .empty
  | append_singleton events e ih =>
      rw [run_append]
      exact ih.step (effect backend _ e)

end Orderly

/-! ## The end of a drain -/

/-- What the end of a drain of verifier `v` does: nobody is pending any more, and whoever is
dropped has no future, was not waited for, and is released. -/
structure Spares (s : State P) (v : Nat) : Prop where
  none_pending : (s.drained v).pendingCount v = 0
  unawaited : ∀ r, s.IsPending v r → ∃ request, s.request? r = some request
    ∧ request.origin.host? = none ∧ request.future = none
    ∧ (s.drained v).request? r = some request.release
  spared : ∀ r request, s.request? r = some request → request.origin.host? ≠ none →
    (s.drained v).request? r = some request
      ∧ ∀ w, (s.drained v).IsPending w r ↔ s.IsPending w r

theorem discarded_drained (h : s.isDrained v = true) : Discarded s (s.drained v) v := by
  rw [drained_eq, if_pos h]
  exact discarded_dropAll h

theorem Orderly.spares (ho : Orderly s) (h : s.isDrained v = true) : Spares s v := by
  have hdiscarded := discarded_drained h
  constructor
  · rw [pendingCount_eq, hdiscarded.pending, if_pos rfl, List.length_eq_zero_iff,
      List.filter_eq_nil_iff]
    intro r hr hnone
    have hfound := ho.found (isPending_iff.mpr hr)
    rw [Option.isNone_iff_eq_none.mp hnone] at hfound
    cases hfound
  · intro r hpending
    have hmem := isPending_iff.mp hpending
    have hfutureless := hdiscarded.futureless r hmem
    obtain ⟨request, hr⟩ := Option.isSome_iff_exists.mp (ho.found hpending)
    refine ⟨request, hr, ?_, ?_, ?_⟩
    · rw [Option.eq_none_iff_forall_ne_some]
      intro w hw
      rw [ho.sound.hasFuture hr hw] at hfutureless
      cases hfutureless
    · rw [hasFuture, hr, Option.bind_some] at hfutureless
      exact Option.not_isSome_iff_eq_none.mp (by rw [hfutureless]; exact Bool.false_ne_true)
    · rw [hdiscarded.requests, if_pos hmem, hr]
      rfl
  · intro r request hr hhost
    obtain ⟨w, hw⟩ := Option.ne_none_iff_exists'.mp hhost
    obtain ⟨hsame, hpending⟩ := hdiscarded.spares (ho.sound.hasFuture hr hw)
    exact ⟨hsame.trans hr, hpending⟩

end SecpKey.Verifier.State
