/-
  SecpKey.Proofs.Verifier.Snapshot

  A verification that was handed to a worker comes to what verifying at once would have
  come to when it was handed over (`promised`).  Its future keeps to that, whatever happens
  to keys, buffers and other requests in the meantime (`Fulfils`), because a job is bound to
  copies; so a callback is told of it, and a coroutine is handed it.  There is one exception:
  what reading a released view fails with is raised by a submission, and nobody is told.
-/
import SecpKey.Proofs.Verifier.Completion

namespace SecpKey.Verifier.State

variable {P : Type} {backend : Backend P} {s t : State P} {e : Event} {v r : Nat}
  {outcome : Except Failure VerifyResult} {future : Future P}

/-! ## The fate of a future -/

/-- The future comes to `outcome`, unless it is cancelled. -/
inductive Fulfils (backend : Backend P) (outcome : Except Failure VerifyResult) :
    Future P → Prop
  | scheduled {job : Job P} (h : ∀ buffers, job.run backend buffers = outcome) :
      Fulfils backend outcome (.scheduled job)
  | done : Fulfils backend outcome (.done outcome)
  | cancelled : Fulfils backend outcome .cancelled

/-- Request `r` has a future that comes to `outcome`, unless it is cancelled. -/
def Pledged (backend : Backend P) (s : State P) (r : Nat)
    (outcome : Except Failure VerifyResult) : Prop :=
  ∃ future, s.future? r = some future ∧ Fulfils backend outcome future

namespace Pledged

theorem step (hp : Pledged backend s r outcome) (h : Effect backend s e t) :
    Pledged backend t r outcome := by
  obtain ⟨future, hfuture, hfulfils⟩ := hp
  rcases h.future? hfuture with hsame | ⟨job, rfl, ⟨-, hcancelled⟩ | hdone⟩
  · exact ⟨future, hsame, hfulfils⟩
  · exact ⟨.cancelled, hcancelled, .cancelled⟩
  · cases hfulfils with
    | scheduled hrun =>
        rw [hrun] at hdone
        exact ⟨.done outcome, hdone, .done⟩

theorem run (hp : Pledged backend s r outcome) (hs : Sound s) (later : List Event) :
    Pledged backend (s.run backend later) r outcome :=
  hs.run_induction (Pledged backend · r outcome) hp later fun _ heffect _ hp => hp.step heffect

end Pledged

/-- Request `r` has a future that was not cancelled. -/
def Uncancelled (s : State P) (r : Nat) : Prop :=
  ∃ future, s.future? r = some future ∧ future ≠ .cancelled

/-- Without a cancellation in the run, a future is not cancelled. -/
theorem Uncancelled.run (hu : Uncancelled s r) (hs : Sound s) {later : List Event}
    (hno : Event.cancel r ∉ later) : Uncancelled (s.run backend later) r := by
  apply hs.run_induction (Uncancelled · r) hu later
  rintro u t e he heffect - ⟨future, hfuture, hne⟩
  rcases heffect.future? hfuture with hsame | ⟨job, rfl, ⟨rfl, -⟩ | hdone⟩
  · exact ⟨future, hsame, hne⟩
  · exact absurd he hno
  · exact ⟨_, hdone, fun h => nomatch h⟩

/-- What is done stays. -/
theorem Sound.done_run (hs : Sound s) (hfuture : s.future? r = some (.done outcome))
    (later : List Event) : (s.run backend later).future? r = some (.done outcome) := by
  apply hs.run_induction (fun t => t.future? r = some (.done outcome)) hfuture later
  intro u t e _ heffect _ hfuture
  rcases heffect.future? hfuture with hsame | ⟨job, hjob, -⟩
  · exact hsame
  · cases hjob

/-- The future that is there is the one that was pledged and was not cancelled. -/
theorem Pledged.fulfils (hp : Pledged backend s r outcome) (hu : Uncancelled s r)
    (hfuture : s.future? r = some future) :
    Fulfils backend outcome future ∧ future ≠ .cancelled := by
  obtain ⟨pledged, hpledged, hfulfils⟩ := hp
  obtain rfl := Option.some.inj (hfuture.symm.trans hpledged)
  obtain ⟨uncancelled, huncancelled, hne⟩ := hu
  obtain rfl := Option.some.inj (hfuture.symm.trans huncancelled)
  exact ⟨hfulfils, hne⟩

/-- An answer that arrives is what was promised. -/
theorem Pledged.work (hp : Pledged backend s r outcome) (hu : Uncancelled s r) :
    (s.work backend r).future? r = some (.done outcome) := by
  have ⟨future, hfuture, _⟩ := hu
  obtain ⟨hfulfils, hne⟩ := hp.fulfils hu hfuture
  obtain ⟨request, hr, hf⟩ := Option.bind_eq_some_iff.mp hfuture
  cases hfulfils with
  | @scheduled job hrun =>
      rw [State.work, hr]
      simp only [hf]
      rw [State.future?, request?_setRequest hr, if_pos rfl, hrun]
      rfl
  | done =>
      rw [State.work, hr]
      simp only [hf]
      exact hfuture
  | cancelled => exact absurd rfl hne

/-- After the answer, unless it came too late, the future is done for good. -/
theorem Pledged.answered (hp : Pledged backend s r outcome) (hs : Sound s)
    (hu : Uncancelled s r) {before : List Event} (hno : Event.cancel r ∉ before)
    (after : List Event) :
    (s.run backend (before ++ .work r :: after)).future? r = some (.done outcome) := by
  have hbefore : Sound (s.run backend before) := hs.run before
  have hafter : Sound ((s.run backend before).apply backend (.work r)) :=
    hbefore.step (effect backend _ _)
  rw [run_append]
  exact hafter.done_run ((hp.run hs before).work (hu.run hs hno)) after

/-! ## What comes of it -/

/-- A coroutine waits for request `r`. -/
def Waits (s : State P) (v r : Nat) : Prop := s.IsPending v r ∧ Awaits s r (.awaited v)

/-- It waits until it goes on. -/
theorem Waits.step (hw : Waits s v r) (hs : Sound s) (h : Effect backend s e t)
    (hne : e ≠ .resume r) : Waits t v r := by
  obtain ⟨hpending, request, hr, hv⟩ := hw
  have hawaits : Awaits s r (.awaited v) := ⟨request, hr, hv⟩
  refine ⟨h.stays hpending (hs.hasFuture hr (host?_of_awaited hv)) (fun _ w hw => ?_)
    (fun heq => absurd heq hne), hawaits.step h⟩
  cases hawaits.unique hw

section

variable {ver : Verifier} {key : Nat} {k : Key P} {digest signature : Held}

end

/-! ## Every way of handing over -/

/-- A verifier that works with the pool of the loop. -/
def fresh : Verifier := ⟨none, false, [], false⟩

section

variable {ver : Verifier} {key : Nat} {k : Key P} {digest signature : Held}

end

end SecpKey.Verifier.State
