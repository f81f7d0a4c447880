/-
  SecpKey.Proofs.Verifier.Pools

  What one step does to pools and to the terms on which verifiers work, read off the ways it can
  go.  `Shift` has a rule for each of the steps that touch them.  So a verifier that is closed
  stays closed (`IsClosed.moves`), and a pool is shut down with the verifier that made it and by
  nobody else (`Unowned.run`).
-/
import SecpKey.Proofs.Verifier.Drain

namespace SecpKey.Verifier.State

variable {P : Type} {backend : Backend P} {s t : State P} {e : Event} {v w r p : Nat}

/-- Verifier `v` exists, and is closed. -/
def IsClosed (s : State P) (v : Nat) : Prop := (s.terms? v).map (·.closed) = some true

/-! ## Steps -/

/-- What a step can do to pools and terms. -/
inductive Shift (s : State P) : Event → State P → Prop
  | kept {e : Event} {t : State P} (hpools : t.pools = s.pools)
      (hterms : ∀ w, t.terms? w = s.terms? w) : Shift s e t
  | lent {accepting : Bool} {t : State P} (hpools : t.pools = s.pools ++ [accepting])
      (hterms : ∀ w, t.terms? w = s.terms? w) : Shift s (.addPool accepting) t
  | borrowed {pool : Option Nat} {t : State P} (hpools : t.pools = s.pools)
      (hterms : ∀ w, t.terms? w
        = if w = s.verifiers.length then some ⟨pool, false, false⟩ else s.terms? w) :
      Shift s (.openVerifier none pool) t
  | staffed {count : Int} {t : State P} (hpools : t.pools = s.pools ++ [true])
      (hterms : ∀ w, t.terms? w = if w = s.verifiers.length then
        some ⟨some s.pools.length, true, false⟩ else s.terms? w) :
      Shift s (.openVerifier (some count) none) t
  | closed {e : Event} {v : Nat} {t : State P} (he : e = .close v ∨ e = .leave v)
      (hpools : t.pools = shutPool s.pools (s.ownPool v))
      (hterms : ∀ w, t.terms? w = if w = v then (s.terms? v).map Terms.shut else s.terms? w) :
      Shift s e t

/-- Nothing else happens to pools and terms in a step. -/
theorem Step.shift (h : Step backend s e t) : Shift s e t := by
  cases h with
  | aside ring buffers _ => exact .kept rfl fun _ => rfl
  | lent accepting => exact .lent rfl fun _ => rfl
  | shutDefault => exact .kept rfl fun _ => rfl
  | borrowed pool => exact .borrowed rfl (terms?_concat ⟨pool, false, [], false⟩ rfl)
  | staffed count => exact .staffed rfl (terms?_concat ⟨some s.pools.length, true, [], false⟩ rfl)
  | closed v => exact .closed (.inl rfl) (by rw [close_eq]) (terms?_close s v)
  | submitted _ _ => exact .kept (by rw [enroll_eq]; rfl) (terms?_enroll s _ _)
  | stranded _ _ => exact .kept (by rw [enroll_eq]; rfl) (terms?_enroll s _ _)
  | awaited _ _ _ => exact .kept (by rw [enroll_eq]; rfl) (terms?_enroll s _ _)
  | cancelled _ _ => exact .kept rfl fun _ => rfl
  | answered _ _ => exact .kept rfl fun _ => rfl
  | reported _ _ _ _ => exact .kept rfl fun _ => rfl
  | finished _ _ _ _ => exact .kept (pools_drop _ _ _) (terms?_drop _ _ _)
  | resumed _ _ _ _ => exact .kept (pools_drop _ _ _) (terms?_drop _ _ _)
  | drained _ => exact .kept (pools_dropAll _ _ _) (terms?_dropAll _ _ _)
  | @left v _ =>
      have hterms := terms?_dropAll s v (s.pendingOf v)
      have hown : (s.dropAll v (s.pendingOf v)).ownPool v = s.ownPool v := by
        rw [ownPool, ownPool, hterms]
      refine .closed (.inr rfl) ?_ fun w => ?_
      · rw [close_eq, hown, pools_dropAll]
      · rw [terms?_close, hterms, hterms]

theorem shift (backend : Backend P) (s : State P) (e : Event) : Shift s e (s.apply backend e) :=
  (step backend s e).shift

/-- Only the event that says so shuts down the pool of the loop. -/
theorem Step.defaultPool (h : Step backend s e t) (hne : e ≠ .shutDefault) :
    t.defaultPool = s.defaultPool := by
  cases h with
  | shutDefault => exact absurd rfl hne
  | closed v => exact defaultPool_close s v
  | submitted _ _ => rw [enroll_eq]; rfl
  | stranded _ _ => rw [enroll_eq]; rfl
  | awaited _ _ _ => rw [enroll_eq]; rfl
  | finished _ _ _ _ => exact defaultPool_drop _ _ _
  | resumed _ _ _ _ => exact defaultPool_drop _ _ _
  | drained _ => exact defaultPool_dropAll _ _ _
  | left _ => exact (defaultPool_close _ _).trans (defaultPool_dropAll _ _ _)
  | aside _ _ _ => rfl
  | lent _ => rfl
  | borrowed _ => rfl
  | staffed _ => rfl
  | cancelled _ _ => rfl
  | answered _ _ => rfl
  | reported _ _ _ _ => rfl

theorem defaultPool_run (s : State P) {later : List Event} (hno : .shutDefault ∉ later) :
    (s.run backend later).defaultPool = s.defaultPool := by
  induction later generalizing s with
  | nil => rfl
  | cons e rest ih =>
      rw [List.mem_cons, not_or] at hno
      have hstep : (s.apply backend e).defaultPool = s.defaultPool :=
        (step backend s e).defaultPool fun he => hno.1 he.symm
      exact (ih (s.apply backend e) hno.2).trans hstep

/-! ## Closed for good -/

theorem terms?_length (s : State P) : s.terms? s.verifiers.length = none := by
  rw [terms?, verifier?_length]
  rfl

/-- Terms stay as they are, until the verifier is closed. -/
theorem Shift.terms? (h : Shift s e t) {terms : Terms} (hv : s.terms? v = some terms) :
    t.terms? v = some terms ∨ t.terms? v = some terms.shut := by
  have hne : v ≠ s.verifiers.length := by
    rintro rfl
    rw [terms?_length] at hv
    cases hv
  cases h with
  | kept _ hterms => exact .inl ((hterms v).trans hv)
  | lent _ hterms => exact .inl ((hterms v).trans hv)
  | borrowed _ hterms => exact .inl (by rw [hterms, if_neg hne, hv])
  | staffed _ hterms => exact .inl (by rw [hterms, if_neg hne, hv])
  | @closed _ w _ _ _ hterms =>
      by_cases heq : v = w
      · subst heq
        exact .inr (by rw [hterms, if_pos rfl, hv]; rfl)
      · exact .inl (by rw [hterms, if_neg heq, hv])

theorem isClosed_iff : s.IsClosed v ↔ ∃ terms, s.terms? v = some terms ∧ terms.closed = true := by
  rw [IsClosed, Option.map_eq_some_iff]

theorem IsClosed.step (h : s.IsClosed v) (hshift : Shift s e t) : t.IsClosed v := by
  obtain ⟨terms, hv, hclosed⟩ := isClosed_iff.mp h
  refine isClosed_iff.mpr ?_
  rcases hshift.terms? hv with hsame | hshut
  · exact ⟨terms, hsame, hclosed⟩
  · exact ⟨terms.shut, hshut, rfl⟩

/-- Nothing opens a closed verifier again, requests made by hand included. -/
theorem IsClosed.moves (h : s.IsClosed v) (later : List Move) :
    (later.foldl (move backend) s).IsClosed v := by
  induction later generalizing s with
  | nil => exact h
  | cons m rest ih =>
      apply ih
      cases m with
      | step e => exact h.step (shift backend s e)
      | enlist w key digest signature =>
          have hterms : (s.move backend (.enlist w key digest signature)).terms? v = s.terms? v :=
            terms?_enroll s w (.fresh .client key digest signature false) v
          rwa [IsClosed, hterms]

theorem isClosed_close (hv : (s.terms? v).isSome = true) : (s.close v).IsClosed v := by
  obtain ⟨terms, hv⟩ := Option.isSome_iff_exists.mp hv
  rw [IsClosed, terms?_close, if_pos rfl, hv]
  rfl

theorem IsClosed.openOne (h : s.IsClosed v) : s.openOne v = .error (.fault .verifierClosed) := by
  obtain ⟨terms, hv, hclosed⟩ := isClosed_iff.mp h
  obtain ⟨ver, hver, rfl⟩ := Option.map_eq_some_iff.mp hv
  rw [State.openOne, hver]
  exact if_pos hclosed

/-- Whatever is handed over to verifier `v` is refused, and leaves everything as it was. -/
structure Rejects (s : State P) (v : Nat) : Prop where
  submit : ∀ key digest signature callback loop,
    s.submit v key digest signature callback loop = (.error (.fault .verifierClosed), s)
  await : ∀ key digest signature,
    s.await v key digest signature = (.error (.fault .verifierClosed), s)
  verifyAsync : ∀ key digest signature callback,
    s.verifyAsync (some v) key digest signature callback = (.error (.fault .verifierClosed), s)

theorem IsClosed.rejects (h : s.IsClosed v) : Rejects s v := by
  have hsubmit : ∀ key digest signature callback loop,
      s.submit v key digest signature callback loop = (.error (.fault .verifierClosed), s) :=
    submit_of_not_open h.openOne
  have hawait : ∀ key digest signature,
      s.await v key digest signature = (.error (.fault .verifierClosed), s) := by
    intro key digest signature
    rw [State.await, h.openOne]
  refine ⟨hsubmit, hawait, fun key digest signature callback => ?_⟩
  cases callback with
  | true => exact hsubmit key digest signature true .running
  | false => exact hawait key digest signature

/-! ## Whose pool it is -/

theorem ownPool_congr (h : t.terms? w = s.terms? w) : t.ownPool w = s.ownPool w := by
  rw [ownPool, ownPool, h]

/-- Only a verifier that is new can get a pool of its own, and that pool is new as well. -/
theorem Shift.ownPool (h : Shift s e t) (w : Nat) : t.ownPool w = s.ownPool w
    ∨ w = s.verifiers.length ∧ t.ownPool w = some s.pools.length ∧ t.pools = s.pools ++ [true] := by
  cases h with
  | kept _ hterms => exact .inl (ownPool_congr (hterms w))
  | lent _ hterms => exact .inl (ownPool_congr (hterms w))
  | borrowed _ hterms =>
      left
      rw [State.ownPool, State.ownPool, hterms]
      split
      · next hw =>
        rw [hw, terms?_length]
        rfl
      · rfl
  | staffed hpools hterms =>
      by_cases hw : w = s.verifiers.length
      · refine .inr ⟨hw, ?_, hpools⟩
        rw [State.ownPool, hterms, if_pos hw]
        rfl
      · exact .inl (ownPool_congr (by rw [hterms, if_neg hw]))
  | @closed _ v _ _ _ hterms =>
      left
      rw [State.ownPool, State.ownPool, hterms]
      split
      · next hw =>
        rw [hw]
        cases s.terms? v with
        | none => rfl
        | some terms => rfl
      · rfl

theorem Shift.ownPool_of_found (h : Shift s e t) (hv : (s.terms? v).isSome = true) :
    t.ownPool v = s.ownPool v := by
  rcases h.ownPool v with hsame | ⟨rfl, -⟩
  · exact hsame
  · rw [terms?_length] at hv
    cases hv

theorem length_shutPool (pools : List Bool) (own : Option Nat) :
    (shutPool pools own).length = pools.length := by
  cases own with
  | none => rfl
  | some pool => exact List.length_set

theorem Shift.length_pools_le (h : Shift s e t) : s.pools.length ≤ t.pools.length := by
  cases h with
  | kept hpools _ => rw [hpools]
  | lent hpools _ => simp [hpools]
  | borrowed hpools _ => rw [hpools]
  | staffed hpools _ => simp [hpools]
  | closed _ hpools _ => rw [hpools, length_shutPool]

/-- Verifiers have made the pools that are their own, each its own one. -/
structure Leased (s : State P) : Prop where
  made : ∀ v p, s.ownPool v = some p → p < s.pools.length
  apart : ∀ v w p, s.ownPool v = some p → s.ownPool w = some p → v = w

namespace Leased

theorem empty : Leased (.empty : State P) where
  made _ _ h := nomatch h
  apart _ _ _ h := nomatch h

theorem step (hl : Leased s) (h : Shift s e t) : Leased t where
  made v p hv := by
    rcases h.ownPool v with hsame | ⟨-, hnew, hpools⟩
    · rw [hsame] at hv
      exact Nat.lt_of_lt_of_le (hl.made v p hv) h.length_pools_le
    · obtain rfl := Option.some.inj (hnew.symm.trans hv)
      simp [hpools]
  apart v w p hv hw := by
    -- Of two verifiers one at most is new, and its pool is beyond all that were made before.
    rcases h.ownPool v with hsame | ⟨rfl, hnew, -⟩
    · rcases h.ownPool w with hsame' | ⟨rfl, hnew', -⟩
      · rw [hsame] at hv
        rw [hsame'] at hw
        exact hl.apart v w p hv hw
      · obtain rfl := Option.some.inj (hnew'.symm.trans hw)
        rw [hsame] at hv
        exact absurd (hl.made v _ hv) (Nat.lt_irrefl _)
    · rcases h.ownPool w with hsame' | ⟨rfl, -⟩
      · obtain rfl := Option.some.inj (hnew.symm.trans hv)
        rw [hsame'] at hw
        exact absurd (hl.made w _ hw) (Nat.lt_irrefl _)
      · rfl

theorem run (hl : Leased s) (later : List Event) : Leased (s.run backend later) := by
  induction later generalizing s with
  | nil => exact hl
  | cons e rest ih => exact ih (hl.step (shift backend s e))

end Leased

/-- A pool that no verifier has made for itself. -/
structure Unowned (s : State P) (p : Nat) : Prop where
  made : p < s.pools.length
  free : ∀ v, s.ownPool v ≠ some p

/-- A step neither hands it to a verifier nor shuts it down. -/
theorem Unowned.step (hu : Unowned s p) (h : Shift s e t) :
    Unowned t p ∧ t.pools[p]? = s.pools[p]? := by
  refine ⟨⟨Nat.lt_of_lt_of_le hu.made h.length_pools_le, fun v hv => ?_⟩, ?_⟩
  · rcases h.ownPool v with hsame | ⟨-, hnew, -⟩
    · exact hu.free v (hsame.symm.trans hv)
    · obtain rfl := Option.some.inj (hnew.symm.trans hv)
      exact absurd hu.made (Nat.lt_irrefl _)
  · cases h with
    | kept hpools _ => rw [hpools]
    | lent hpools _ => rw [hpools, List.getElem?_append_left hu.made]
    | borrowed hpools _ => rw [hpools]
    | staffed hpools _ => rw [hpools, List.getElem?_append_left hu.made]
    | @closed _ v _ _ hpools _ =>
        rw [hpools]
        cases hown : s.ownPool v with
        | none => rfl
        | some pool =>
            have hne : pool ≠ p := by
              rintro rfl
              exact hu.free v hown
            exact List.getElem?_set_ne hne

theorem Unowned.run (hu : Unowned s p) (later : List Event) :
    (s.run backend later).pools[p]? = s.pools[p]? := by
  induction later generalizing s with
  | nil => rfl
  | cons e rest ih =>
      obtain ⟨hnext, hsame⟩ := hu.step (shift backend s e)
      exact (ih hnext).trans hsame

/-- Whoever makes a pool to lend it is not a verifier. -/
theorem Leased.unowned_addPool (hl : Leased s) (accepting : Bool) :
    Unowned (s.addPool accepting).2 (s.addPool accepting).1 where
  made := by
    show s.pools.length < (s.pools ++ [accepting]).length
    simp
  free v hv := by
    have hlt := hl.made v _ hv
    exact absurd hlt (Nat.lt_irrefl _)

/-! ## Working alone -/

/-- The pool that verifier `v` works with, if that is not the one of the loop. -/
def workPool (s : State P) (v : Nat) : Option Nat := (s.terms? v).bind (·.pool)

theorem workPool_congr (h : t.terms? w = s.terms? w) : t.workPool w = s.workPool w := by
  rw [workPool, workPool, h]

/-- Whoever works with a pool worked with it before, or was opened in this step: to borrow that
pool, or with a pool that was made for it. -/
theorem Shift.workPool (h : Shift s e t) (hw : t.workPool w = some p) : s.workPool w = some p
    ∨ e = .openVerifier none (some p) ∨ p = s.pools.length ∧ t.ownPool w = some p := by
  cases h with
  | kept _ hterms => exact .inl ((workPool_congr (hterms w)).symm.trans hw)
  | lent _ hterms => exact .inl ((workPool_congr (hterms w)).symm.trans hw)
  | borrowed _ hterms =>
      by_cases hnew : w = s.verifiers.length
      · rw [State.workPool, hterms, if_pos hnew] at hw
        obtain rfl : _ = some p := hw
        exact .inr (.inl rfl)
      · exact .inl ((workPool_congr (by rw [hterms, if_neg hnew])).symm.trans hw)
  | staffed _ hterms =>
      by_cases hnew : w = s.verifiers.length
      · rw [State.workPool, hterms, if_pos hnew] at hw
        obtain rfl := Option.some.inj hw
        refine .inr (.inr ⟨rfl, ?_⟩)
        rw [State.ownPool, hterms, if_pos hnew]
        rfl
      · exact .inl ((workPool_congr (by rw [hterms, if_neg hnew])).symm.trans hw)
  | @closed _ v _ _ _ hterms =>
      left
      rw [← hw, State.workPool, State.workPool, hterms]
      split
      · next heq =>
        rw [heq]
        cases s.terms? v with
        | none => rfl
        | some terms => rfl
      · rfl

theorem isSome_terms?_of_workPool (h : s.workPool w = some p) : (s.terms? w).isSome = true := by
  obtain ⟨terms, hterms, -⟩ := Option.bind_eq_some_iff.mp h
  rw [hterms]
  rfl

/-- Verifier `v` exists, and no other works with a pool that it made for itself. -/
structure Private (s : State P) (v : Nat) : Prop where
  found : (s.terms? v).isSome = true
  made : ∀ p, s.ownPool v = some p → p < s.pools.length
  alone : ∀ p w, s.ownPool v = some p → w ≠ v → s.workPool w ≠ some p

/-- The event does not have a new verifier borrow a pool that verifier `v` made for itself. -/
def Unborrowed (s : State P) (v : Nat) (e : Event) : Prop :=
  ∀ p, s.ownPool v = some p → e ≠ .openVerifier none (some p)

theorem isSome_terms?_step (hv : (s.terms? v).isSome = true) (h : Shift s e t) :
    (t.terms? v).isSome = true := by
  obtain ⟨terms, hv⟩ := Option.isSome_iff_exists.mp hv
  rcases h.terms? hv with hsame | hshut
  · rw [hsame]
    rfl
  · rw [hshut]
    rfl

theorem Private.step (hp : Private s v) (h : Shift s e t) (hfree : Unborrowed s v e) :
    Private t v where
  found := isSome_terms?_step hp.found h
  made p hown := by
    rw [h.ownPool_of_found hp.found] at hown
    exact Nat.lt_of_lt_of_le (hp.made p hown) h.length_pools_le
  alone p w hown hne hw := by
    rw [h.ownPool_of_found hp.found] at hown
    rcases h.workPool hw with hold | hborrowed | ⟨hnew, -⟩
    · exact hp.alone p w hown hne hold
    · exact hfree p hown hborrowed
    · have hlt := hp.made p hown
      omega

/-- Whoever works with a pool in a run made it for itself or was opened to borrow it. -/
theorem owns_or_borrowed (events : List Event)
    (hw : (run backend .empty events).workPool w = some p) :
    (run backend .empty events).ownPool w = some p ∨ .openVerifier none (some p) ∈ events := by
  induction events using List.reverseRecOn with
  | nil => cases hw
  | append_singleton events e ih =>
      rw [run_append] at hw ⊢
      have h : Shift (run backend .empty events) e _ := shift backend _ e
      rcases h.workPool hw with hold | rfl | ⟨-, hown⟩
      · rcases ih hold with hown | hmem
        · exact .inl ((h.ownPool_of_found (isSome_terms?_of_workPool hold)).trans hown)
        · exact .inr (List.mem_append_left _ hmem)
      · exact .inr (List.mem_append_right _ List.mem_cons_self)
      · exact .inl hown

/-- In a run in which nobody borrows it, no other verifier works with that pool. -/
theorem private_run (events : List Event)
    (hv : ((run backend .empty events).terms? v).isSome = true)
    (hfree : ∀ e ∈ events, Unborrowed (run backend .empty events) v e) :
    Private (run backend .empty events) v := by
  -- Whoever works with it made it, and is `v`, or borrowed it, which nobody did.
  have hl : Leased (run backend .empty events) := Leased.empty.run events
  refine ⟨hv, hl.made v, fun p w hown hne hw => ?_⟩
  rcases owns_or_borrowed events hw with hown' | hmem
  · exact hne (hl.apart w v p hown' hown)
  · exact hfree _ hmem p hown rfl

end SecpKey.Verifier.State
