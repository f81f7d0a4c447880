/-
  SecpKey.Proofs.Verifier.Access

  What is read of requests, pending sets and terms after one of them was changed.  Whatever is
  done to a verifier, that it is given a request, that it drops one, or that it is closed, is a
  change to one entry of the list (`onVerifier`), so its pending set and its terms are read off
  that change.  The end of a drain drops requests one after the other (`dropAll`).
-/
import SecpKey.Verifier.State
import Mathlib.Data.List.Basic

namespace SecpKey.Verifier.State

variable {P : Type} {s t : State P} {v w r q : Nat} {request : Request P}

/-! ## Requests -/

theorem request?_setRequest (hr : s.request? r = some request) (changed : Request P) (q : Nat) :
    (s.setRequest r changed).request? q = if q = r then some changed else s.request? q := by
  have hlt := (List.getElem?_eq_some_iff.mp hr).1
  show (s.requests.set r changed)[q]? = if q = r then some changed else s.requests[q]?
  split
  · next heq => rw [heq, List.getElem?_set_self hlt]
  · next hne => rw [List.getElem?_set_ne (Ne.symm hne)]

theorem request?_concat (h : t.requests = s.requests ++ [request]) (q : Nat) :
    t.request? q = if q = s.requests.length then some request else s.request? q := by
  rw [request?, request?, h]
  split
  · next heq => rw [heq, List.getElem?_concat_length]
  · next hne =>
    rcases Nat.lt_or_gt_of_ne hne with hlt | hgt
    · rw [List.getElem?_append_left hlt]
    · rw [List.getElem?_eq_none (Nat.le_of_lt hgt), List.getElem?_eq_none]
      rw [List.length_append, List.length_singleton]
      omega

theorem lt_length_of_request? (hr : s.request? r = some request) : r < s.requests.length :=
  (List.getElem?_eq_some_iff.mp hr).1

/-- The future of request `r`. -/
def future? (s : State P) (r : Nat) : Option (Future P) := (s.request? r).bind (·.future)

theorem hasFuture_eq (s : State P) (r : Nat) : s.hasFuture r = (s.future? r).isSome := rfl

/-- Only a request that exists has a future. -/
theorem exists_request_of_hasFuture (h : s.hasFuture r = true) :
    ∃ request, s.request? r = some request := by
  rw [hasFuture] at h
  cases hr : s.request? r with
  | none =>
      rw [hr] at h
      cases h
  | some request => exact ⟨request, rfl⟩

theorem callsOf_append (s : State P) (calls : List Call) (r : Nat)
    (h : t.calls = s.calls ++ calls) :
    t.callsOf r = s.callsOf r ++ calls.filter (fun call => call.request == r) := by
  rw [callsOf, callsOf, h, List.filter_append]

theorem callsOf_of_calls (h : t.calls = s.calls) (r : Nat) : t.callsOf r = s.callsOf r := by
  rw [callsOf, callsOf, h]

/-! ## One verifier changes -/

/-- The state with a change to verifier `v`, if there is one. -/
def onVerifier (s : State P) (v : Nat) (f : Verifier → Verifier) : State P :=
  { s with verifiers := s.verifiers.modify v f }

theorem set_eq_modify_of_getElem? {α : Type} {l : List α} {i : Nat} {a : α} (h : l[i]? = some a)
    (f : α → α) : l.set i (f a) = l.modify i f := by
  have hlt := (List.getElem?_eq_some_iff.mp h).1
  apply List.ext_getElem?
  intro j
  rw [List.getElem?_set, List.getElem?_modify]
  split
  · next heq =>
    subst heq
    rw [h]
    rfl
  · simp

theorem setVerifier_eq {ver : Verifier} (hv : s.verifier? v = some ver) (f : Verifier → Verifier) :
    s.setVerifier v (f ver) = s.onVerifier v f := by
  rw [setVerifier, onVerifier, set_eq_modify_of_getElem? hv]

theorem onVerifier_of_none (hv : s.verifier? v = none) (f : Verifier → Verifier) :
    s.onVerifier v f = s := by
  have hsame : s.verifiers.modify v f = s.verifiers := by
    apply List.ext_getElem?
    intro j
    rw [List.getElem?_modify]
    by_cases h : v = j
    · subst h
      rw [show s.verifiers[v]? = none from hv]
      rfl
    · simp [h]
  rw [onVerifier, hsame]

theorem verifier?_onVerifier (s : State P) (v w : Nat) (f : Verifier → Verifier) :
    (s.onVerifier v f).verifier? w = if w = v then (s.verifier? v).map f else s.verifier? w := by
  rw [verifier?, onVerifier, List.getElem?_modify]
  by_cases h : w = v
  · subst h
    simp [verifier?]
  · rw [if_neg h]
    simp [Ne.symm h, verifier?]

theorem isSome_verifier?_onVerifier (s : State P) (v w : Nat) (f : Verifier → Verifier) :
    ((s.onVerifier v f).verifier? w).isSome = (s.verifier? w).isSome := by
  rw [verifier?_onVerifier]
  split
  · next h => rw [h, Option.isSome_map]
  · rfl

theorem verifier?_concat {ver : Verifier} (h : t.verifiers = s.verifiers ++ [ver]) (w : Nat) :
    t.verifier? w = if w = s.verifiers.length then some ver else s.verifier? w := by
  rw [verifier?, verifier?, h]
  rcases Nat.lt_trichotomy w s.verifiers.length with hlt | rfl | hgt
  · rw [List.getElem?_append_left hlt, if_neg (Nat.ne_of_lt hlt)]
  · rw [List.getElem?_concat_length, if_pos rfl]
  · rw [if_neg (Nat.ne_of_gt hgt), List.getElem?_eq_none (Nat.le_of_lt hgt), List.getElem?_eq_none]
    rw [List.length_append, List.length_singleton]
    omega

theorem verifier?_length (s : State P) : s.verifier? s.verifiers.length = none :=
  List.getElem?_eq_none (Nat.le_refl _)

/-! ## Terms -/

/-- How a verifier works: with which pool, whether that is its own, and whether any longer. -/
structure Terms where
  pool : Option Nat
  ownsPool : Bool
  closed : Bool
  deriving DecidableEq, Repr

def Terms.shut (terms : Terms) : Terms := { terms with closed := true }

def termsOf (ver : Verifier) : Terms := ⟨ver.pool, ver.ownsPool, ver.closed⟩

/-- The terms on which verifier `v` works. -/
def terms? (s : State P) (v : Nat) : Option Terms := (s.verifier? v).map termsOf

/-- The pool that verifier `v` made for itself. -/
def ownPool (s : State P) (v : Nat) : Option Nat :=
  (s.terms? v).bind fun terms => if terms.ownsPool then terms.pool else none

/-- The pools after one of them was shut down. -/
def shutPool (pools : List Bool) : Option Nat → List Bool
  | none => pools
  | some pool => pools.set pool false

theorem isSome_terms? (s : State P) (v : Nat) :
    (s.terms? v).isSome = (s.verifier? v).isSome := by
  rw [terms?, Option.isSome_map]

theorem terms?_onVerifier {f : Verifier → Verifier} (hf : ∀ ver, termsOf (f ver) = termsOf ver)
    (s : State P) (v w : Nat) : (s.onVerifier v f).terms? w = s.terms? w := by
  rw [terms?, terms?, verifier?_onVerifier]
  split
  · next h =>
    subst h
    cases s.verifier? w with
    | none => rfl
    | some ver => exact congrArg some (hf ver)
  · rfl

theorem terms?_concat (ver : Verifier) (h : t.verifiers = s.verifiers ++ [ver]) (w : Nat) :
    t.terms? w = if w = s.verifiers.length then some (termsOf ver) else s.terms? w := by
  rw [terms?, terms?, verifier?_concat h]
  split
  · rfl
  · rfl

/-! ## Pending sets -/

/-- The pending requests of a verifier, in the order in which they came. -/
def pendingOf (s : State P) (v : Nat) : List Nat :=
  ((s.verifier? v).map (·.pending)).getD []

/-- Request `r` is in the pending set of verifier `v`. -/
def IsPending (s : State P) (v r : Nat) : Prop :=
  ∃ ver, s.verifier? v = some ver ∧ r ∈ ver.pending

theorem isPending_iff : s.IsPending v r ↔ r ∈ s.pendingOf v := by
  cases hv : s.verifier? v with
  | none => simp [IsPending, pendingOf, hv]
  | some ver => simp [IsPending, pendingOf, hv]

theorem isPending_congr (h : t.pendingOf w = s.pendingOf w) (q : Nat) :
    t.IsPending w q ↔ s.IsPending w q := by
  rw [isPending_iff, isPending_iff, h]

theorem pendingOf_of_none (hv : s.verifier? v = none) : s.pendingOf v = [] := by
  rw [pendingOf, hv]
  rfl

theorem pendingCount_eq (s : State P) (v : Nat) : s.pendingCount v = (s.pendingOf v).length := by
  cases hv : s.verifier? v with
  | none => simp [pendingCount, pendingOf, hv]
  | some ver => simp [pendingCount, pendingOf, hv]

theorem contains_pendingOf (s : State P) (v r : Nat) :
    ((s.verifier? v).map (·.pending.contains r)).getD false = (s.pendingOf v).contains r := by
  rw [pendingOf]
  cases s.verifier? v with
  | none => rfl
  | some ver => rfl

/-- A change to a verifier changes its pending set as `g` says. -/
theorem pendingOf_onVerifier {f : Verifier → Verifier} {g : List Nat → List Nat}
    (hf : ∀ ver, (f ver).pending = g ver.pending) (hv : (s.verifier? v).isSome = true) (w : Nat) :
    (s.onVerifier v f).pendingOf w = if w = v then g (s.pendingOf w) else s.pendingOf w := by
  obtain ⟨ver, hv⟩ := Option.isSome_iff_exists.mp hv
  rw [pendingOf, verifier?_onVerifier]
  split
  · next h =>
    rw [pendingOf, h, hv]
    exact hf ver
  · rfl

/-- A new verifier has nothing pending. -/
theorem pendingOf_concat {ver : Verifier} (h : t.verifiers = s.verifiers ++ [ver])
    (hnew : ver.pending = []) (w : Nat) : t.pendingOf w = s.pendingOf w := by
  rw [pendingOf, verifier?_concat h]
  split
  · next hw =>
    rw [hw, pendingOf_of_none s.verifier?_length, ← hnew]
    rfl
  · rfl

/-! ## Handing over -/

/-- A verifier with one more pending request. -/
def addPending (r : Nat) (ver : Verifier) : Verifier := { ver with pending := ver.pending ++ [r] }

theorem pend_eq (s : State P) (v r : Nat) : s.pend v r = s.onVerifier v (addPending r) := by
  cases hv : s.verifier? v with
  | none => rw [pend, hv, onVerifier_of_none hv]
  | some ver =>
      rw [pend, hv]
      exact setVerifier_eq hv (addPending r)

theorem enroll_eq (s : State P) (v : Nat) (request : Request P) : s.enroll v request
    = { s.onVerifier v (addPending s.requests.length) with
        requests := s.requests ++ [request] } := by
  show (s.addRequest request).2.pend v s.requests.length = _
  rw [pend_eq]
  rfl

theorem pendingOf_enroll (hv : (s.verifier? v).isSome = true) (request : Request P) (w : Nat) :
    (s.enroll v request).pendingOf w
      = if w = v then s.pendingOf w ++ [s.requests.length] else s.pendingOf w := by
  rw [enroll_eq]
  exact pendingOf_onVerifier (f := addPending s.requests.length) (g := (· ++ [s.requests.length]))
    (fun _ => rfl) hv w

theorem terms?_enroll (s : State P) (v : Nat) (request : Request P) (w : Nat) :
    (s.enroll v request).terms? w = s.terms? w := by
  rw [enroll_eq]
  exact terms?_onVerifier (f := addPending s.requests.length) (fun _ => rfl) s v w

theorem request?_enroll (s : State P) (v : Nat) (request : Request P) (q : Nat) :
    (s.enroll v request).request? q
      = if q = s.requests.length then some request else s.request? q := by
  refine request?_concat ?_ q
  rw [enroll_eq]

/-! ## Dropping -/

/-- A verifier without one of its pending requests. -/
def removePending (r : Nat) (ver : Verifier) : Verifier :=
  { ver with pending := ver.pending.filter (· != r) }

theorem drop_eq (hv : (s.verifier? v).isSome = true) (hr : s.request? r = some request) :
    s.drop v r = (s.onVerifier v (removePending r)).setRequest r request.release := by
  obtain ⟨ver, hv⟩ := Option.isSome_iff_exists.mp hv
  simp only [drop, hv, hr]
  rw [← setVerifier_eq hv]
  rfl

theorem drop_of_no_verifier (hv : s.verifier? v = none) (r : Nat) : s.drop v r = s := by
  rw [drop, hv]

/-- A request that does not exist cannot be dropped. -/
theorem drop_of_none (hr : s.request? r = none) : s.drop v r = s := by
  rw [drop, hr]
  split
  · next h => cases h
  · rfl

theorem request?_drop (hv : (s.verifier? v).isSome = true) (r q : Nat) :
    (s.drop v r).request? q = if q = r then (s.request? q).map .release else s.request? q := by
  cases hr : s.request? r with
  | none =>
      rw [drop_of_none hr]
      split
      · next h =>
        rw [h, hr]
        rfl
      · rfl
  | some request =>
      rw [drop_eq hv hr, request?_setRequest (s := s.onVerifier v (removePending r)) hr]
      split
      · next h =>
        rw [h, hr]
        rfl
      · rfl

theorem pendingOf_drop (hr : s.request? r = some request) (v w : Nat) :
    (s.drop v r).pendingOf w
      = if w = v then (s.pendingOf w).filter (· != r) else s.pendingOf w := by
  cases hv : s.verifier? v with
  | none =>
      rw [drop_of_no_verifier hv]
      split
      · next hw =>
        rw [hw, pendingOf_of_none hv]
        rfl
      · rfl
  | some ver =>
      have hsome : (s.verifier? v).isSome = true := by rw [hv]; rfl
      rw [drop_eq hsome hr]
      exact pendingOf_onVerifier (f := removePending r)
        (g := fun pending => pending.filter (· != r)) (fun _ => rfl) hsome w

theorem calls_drop (s : State P) (v r : Nat) : (s.drop v r).calls = s.calls := by
  rw [drop]
  split
  · rfl
  · rfl

theorem pools_drop (s : State P) (v r : Nat) : (s.drop v r).pools = s.pools := by
  rw [drop]
  split
  · rfl
  · rfl

theorem defaultPool_drop (s : State P) (v r : Nat) : (s.drop v r).defaultPool = s.defaultPool := by
  rw [drop]
  split
  · rfl
  · rfl

/-- A drop changes the verifier's pending set and nothing else about any verifier. -/
theorem exists_verifier?_drop (s : State P) (v r : Nat) : ∃ f : Verifier → Verifier,
    (∀ ver, termsOf (f ver) = termsOf ver)
      ∧ (∀ w, (s.drop v r).verifier? w = (s.onVerifier v f).verifier? w) := by
  cases hv : s.verifier? v with
  | none =>
      refine ⟨id, fun _ => rfl, fun w => ?_⟩
      rw [drop_of_no_verifier hv, onVerifier_of_none hv]
  | some ver =>
      cases hr : s.request? r with
      | none =>
          refine ⟨id, fun _ => rfl, fun w => ?_⟩
          rw [drop_of_none hr, verifier?_onVerifier]
          split
          · next h => rw [h, Option.map_id_fun, id]
          · rfl
      | some request =>
          refine ⟨removePending r, fun _ => rfl, fun w => ?_⟩
          rw [drop_eq (by rw [hv]; rfl) hr]
          rfl

theorem terms?_drop (s : State P) (v r w : Nat) : (s.drop v r).terms? w = s.terms? w := by
  obtain ⟨f, hterms, hsame⟩ := exists_verifier?_drop s v r
  rw [← terms?_onVerifier hterms s v w, terms?, terms?, hsame]

theorem isSome_verifier?_drop (s : State P) (v r w : Nat) :
    ((s.drop v r).verifier? w).isSome = (s.verifier? w).isSome := by
  rw [← isSome_terms?, terms?_drop, isSome_terms?]

theorem verifier?_drop_of_ne (hne : w ≠ v) (r : Nat) :
    (s.drop v r).verifier? w = s.verifier? w := by
  obtain ⟨f, -, hsame⟩ := exists_verifier?_drop s v r
  rw [hsame, verifier?_onVerifier, if_neg hne]

/-! ## Dropping one after the other -/

/-- Requests that are dropped one after the other. -/
def dropAll (s : State P) (v : Nat) (dropped : List Nat) : State P :=
  dropped.foldl (fun s r => s.drop v r) s

/-- Whatever a drop leaves alone, dropping many leaves alone. -/
theorem dropAll_induction {p : State P → Prop} (hp : p s) (v : Nat) (dropped : List Nat)
    (hdrop : ∀ t r, p t → p (t.drop v r)) : p (s.dropAll v dropped) := by
  induction dropped generalizing s with
  | nil => exact hp
  | cons r rest ih => exact ih (hdrop s r hp)

theorem calls_dropAll (s : State P) (v : Nat) (dropped : List Nat) :
    (s.dropAll v dropped).calls = s.calls :=
  dropAll_induction (p := fun t => t.calls = s.calls) rfl v dropped fun t r h =>
    (calls_drop t v r).trans h

theorem pools_dropAll (s : State P) (v : Nat) (dropped : List Nat) :
    (s.dropAll v dropped).pools = s.pools :=
  dropAll_induction (p := fun t => t.pools = s.pools) rfl v dropped fun t r h =>
    (pools_drop t v r).trans h

theorem defaultPool_dropAll (s : State P) (v : Nat) (dropped : List Nat) :
    (s.dropAll v dropped).defaultPool = s.defaultPool :=
  dropAll_induction (p := fun t => t.defaultPool = s.defaultPool) rfl v dropped fun t r h =>
    (defaultPool_drop t v r).trans h

theorem terms?_dropAll (s : State P) (v : Nat) (dropped : List Nat) (w : Nat) :
    (s.dropAll v dropped).terms? w = s.terms? w :=
  dropAll_induction (p := fun t => t.terms? w = s.terms? w) rfl v dropped fun t r h =>
    (terms?_drop t v r w).trans h

theorem verifier?_dropAll_of_ne (hne : w ≠ v) (dropped : List Nat) :
    (s.dropAll v dropped).verifier? w = s.verifier? w :=
  dropAll_induction (p := fun t => t.verifier? w = s.verifier? w) rfl v dropped fun _ r h =>
    (verifier?_drop_of_ne hne r).trans h

/-- Whatever is dropped is released, also when it is dropped twice. -/
theorem request?_dropAll (hv : (s.verifier? v).isSome = true) (dropped : List Nat) (q : Nat) :
    (s.dropAll v dropped).request? q
      = if q ∈ dropped then (s.request? q).map .release else s.request? q := by
  induction dropped generalizing s with
  | nil => rfl
  | cons r rest ih =>
      show ((s.drop v r).dropAll v rest).request? q = _
      rw [ih ((isSome_verifier?_drop s v r v).trans hv), request?_drop hv]
      by_cases hq : q = r
      · rw [if_pos hq, if_pos (List.mem_cons.mpr (.inl hq)), Option.map_map]
        split
        · rfl
        · rfl
      · rw [if_neg hq]
        simp only [List.mem_cons, hq, false_or]

/-- Requests that exist are no longer pending after they are dropped. -/
theorem pendingOf_dropAll (hv : (s.verifier? v).isSome = true) (dropped : List Nat) (w : Nat) :
    (s.dropAll v dropped).pendingOf w
      = if w = v then (s.pendingOf w).filter fun q =>
          !(dropped.contains q && (s.request? q).isSome)
        else s.pendingOf w := by
  induction dropped generalizing s with
  | nil => simp [dropAll]
  | cons r rest ih =>
      have hfound : ∀ q, ((s.drop v r).request? q).isSome = (s.request? q).isSome := by
        intro q
        rw [request?_drop hv]
        split
        · exact Option.isSome_map
        · rfl
      show ((s.drop v r).dropAll v rest).pendingOf w = _
      rw [ih ((isSome_verifier?_drop s v r v).trans hv)]
      simp only [hfound]
      cases hr : s.request? r with
      | none =>
          -- Who does not exist makes no difference.
          rw [drop_of_none hr]
          split
          · apply List.filter_congr
            intro q _
            by_cases hq : q = r
            · simp [hq, hr]
            · simp [hq]
          · rfl
      | some request =>
          rw [pendingOf_drop hr]
          split
          · rw [List.filter_filter]
            apply List.filter_congr
            intro q _
            by_cases hq : q = r
            · simp [hq, hr]
            · simp [hq]
          · rfl

/-! ## The end of a drain -/

theorem isDrained_eq (s : State P) (v : Nat) : s.isDrained v
    = ((s.verifier? v).isSome && (s.pendingOf v).all fun r => !s.hasFuture r) := by
  rw [isDrained, pendingOf]
  cases s.verifier? v with
  | none => rfl
  | some ver => rfl

theorem isSome_verifier?_of_isDrained (h : s.isDrained v = true) :
    (s.verifier? v).isSome = true := by
  rw [isDrained_eq, Bool.and_eq_true] at h
  exact h.1

/-- A drain may end when nobody who is pending has a future. -/
theorem hasFuture_of_isDrained (h : s.isDrained v = true) (hr : r ∈ s.pendingOf v) :
    s.hasFuture r = false := by
  rw [isDrained_eq, Bool.and_eq_true, List.all_eq_true] at h
  simpa using h.2 r hr

theorem drained_eq (s : State P) (v : Nat) :
    s.drained v = if s.isDrained v then s.dropAll v (s.pendingOf v) else s := by
  rw [drained, pendingOf]
  cases hv : s.verifier? v with
  | none =>
      rw [isDrained, hv]
      rfl
  | some ver => rfl

theorem leave_eq (s : State P) (v : Nat) :
    s.leave v = if s.isDrained v then (s.dropAll v (s.pendingOf v)).close v else s := by
  rw [leave, drained_eq]
  split
  · rfl
  · rfl

/-! ## Closing -/

def markClosed (ver : Verifier) : Verifier := { ver with closed := true }

theorem close_eq (s : State P) (v : Nat) : s.close v
    = { s.onVerifier v markClosed with pools := shutPool s.pools (s.ownPool v) } := by
  cases hv : s.verifier? v with
  | none =>
      have hown : s.ownPool v = none := by rw [ownPool, terms?, hv]; rfl
      rw [onVerifier_of_none hv, hown, close, hv]
      rfl
  | some ver =>
      obtain ⟨pool, ownsPool, pending, closed⟩ := ver
      have hown : s.ownPool v = if ownsPool then pool else none := by rw [ownPool, terms?, hv]; rfl
      rw [hown, close, hv, ← setVerifier_eq hv]
      cases ownsPool with
      | false => rfl
      | true =>
          cases pool with
          | none => rfl
          | some pool => rfl

theorem verifier?_close (s : State P) (v w : Nat) :
    (s.close v).verifier? w
      = if w = v then (s.verifier? v).map markClosed else s.verifier? w := by
  rw [close_eq]
  exact verifier?_onVerifier s v w markClosed

theorem isSome_verifier?_close (s : State P) (v w : Nat) :
    ((s.close v).verifier? w).isSome = (s.verifier? w).isSome := by
  rw [close_eq]
  exact isSome_verifier?_onVerifier s v w markClosed

theorem terms?_close (s : State P) (v w : Nat) :
    (s.close v).terms? w = if w = v then (s.terms? v).map Terms.shut else s.terms? w := by
  rw [terms?, terms?, terms?, verifier?_close]
  split
  · cases s.verifier? v with
    | none => rfl
    | some ver => rfl
  · rfl

theorem pendingOf_close (s : State P) (v w : Nat) : (s.close v).pendingOf w = s.pendingOf w := by
  rw [pendingOf, pendingOf, verifier?_close]
  split
  · next h =>
    rw [h]
    cases s.verifier? v with
    | none => rfl
    | some ver => rfl
  · rfl

@[simp]
theorem ring_close (s : State P) (v : Nat) : (s.close v).ring = s.ring := by
  rw [close_eq]
  rfl

@[simp]
theorem buffers_close (s : State P) (v : Nat) : (s.close v).buffers = s.buffers := by
  rw [close_eq]
  rfl

@[simp]
theorem defaultPool_close (s : State P) (v : Nat) : (s.close v).defaultPool = s.defaultPool := by
  rw [close_eq]
  rfl

@[simp]
theorem requests_close (s : State P) (v : Nat) : (s.close v).requests = s.requests := by
  rw [close_eq]
  rfl

@[simp]
theorem calls_close (s : State P) (v : Nat) : (s.close v).calls = s.calls := by
  rw [close_eq]
  rfl

theorem request?_close (s : State P) (v r : Nat) : (s.close v).request? r = s.request? r := by
  rw [request?, request?, requests_close]

/-! ## Opening -/

theorem openOne_eq_ok {ver : Verifier} :
    s.openOne v = .ok ver ↔ s.verifier? v = some ver ∧ ver.closed = false := by
  rw [openOne]
  cases s.verifier? v with
  | none => simp
  | some w =>
      cases hclosed : w.closed with
      | true =>
          simp only [hclosed, if_true, reduceCtorEq, Option.some.injEq, false_iff]
          rintro ⟨rfl, hopen⟩
          rw [hclosed] at hopen
          cases hopen
      | false =>
          simp only [hclosed, Bool.false_eq_true, if_false, Except.ok.injEq, Option.some.injEq]
          constructor
          · rintro rfl
            exact ⟨rfl, hclosed⟩
          · exact And.left

theorem isSome_verifier?_of_openOne {ver : Verifier} (hopen : s.openOne v = .ok ver) :
    (s.verifier? v).isSome = true := by
  rw [(openOne_eq_ok.mp hopen).1]
  rfl

end SecpKey.Verifier.State
