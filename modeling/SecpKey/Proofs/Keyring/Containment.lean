/-
  SecpKey.Proofs.Keyring.Containment

  Where scalars are, after every operation of every run.  `containersMade` counts the
  containers that an operation makes, those it wipes again included; `Contained` says what has
  become of them, and of the older ones.  All of it comes from ownership and from what one
  operation can do (`Owned.moves`), so it holds without anything being collected.
-/
import SecpKey.Proofs.Keyring.Atomicity

namespace SecpKey.Keyring

variable {P : Type} {backend : Backend P} {ring : Keyring P} {op : KeyOp}

/-! ## Counting containers -/

/-- How many containers an operation makes: one for each candidate that is drawn, for a scalar
that is decoded or set, and for a copy to sign or to regenerate with. -/
def containersMade (backend : Backend P) (ring : Keyring P) : KeyOp → Nat
  | .generate draws => Key.drawn draws
  | .ofDer data => (data.ensureBytes "der" >>= EcPrivateKey.decode backend .secp256k1).isOk.toNat
  | .setPrivate key data => (ring.keys[key]?.isSome && (data.ensureBytes "private").isOk).toNat
  | .regenerate key => (ring.secretAt key).isSome.toNat
  | .sign key digest => ((ring.secretAt key).isSome && (ensureDigest digest).isOk).toNat
  | .new | .getPrivate _ | .getPublic _ | .setPublic _ _ | .publicPoint _ | .setCompressed _ _
  | .toDer _ | .verify _ _ _ | .equals _ _ | .describe _ | .close _ | .useOnce _ => 0

theorem vault_making (outcome : Outcome (Key P × List Draw)) :
    (ring.making outcome).2.vault = outcome.2 := by
  rcases outcome with ⟨e | ⟨k, left⟩, w⟩
  · rfl
  · rfl

theorem vault_changing (key : Nat) (outcome : Outcome (Key P)) :
    (ring.changing key outcome).2.vault = outcome.2 := by
  rcases outcome with ⟨e | k, w⟩
  · rfl
  · rfl

/-- On a number that was not given out nothing is made. -/
theorem length_withKey {key n : Nat} {act : Key P → Except Failure KeyAnswer × Keyring P}
    (hmissing : ring.keys[key]? = none → n = 0)
    (h : ∀ k, ring.keys[key]? = some k →
      (act k).2.vault.cells.length = ring.vault.cells.length + n) :
    (ring.withKey key act).2.vault.cells.length = ring.vault.cells.length + n := by
  rw [withKey]
  split
  · next hnone => rw [hmissing hnone, Nat.add_zero]
  · next k hk => exact h k hk

theorem Owned.length_perform (ho : Owned ring) (op : KeyOp) :
    (ring.perform backend op).2.vault.cells.length
      = ring.vault.cells.length + containersMade backend ring op := by
  have hlooking : ∀ (key : Nat) (answer : Key P → Except Failure KeyAnswer),
      (ring.withKey key fun k => ring.looking (answer k)).2.vault.cells.length
        = ring.vault.cells.length + 0 :=
    fun key answer => length_withKey (fun _ => rfl) fun _ _ => rfl
  cases op with
  | new => rfl
  | generate draws =>
      rw [Keyring.perform, vault_making]
      exact (Key.outcome_generate draws _).length_eq
  | ofDer data =>
      rw [Keyring.perform, vault_making]
      exact (Key.outcome_ofDer data _).length_eq
  | setPrivate key data =>
      refine length_withKey (fun hnone => ?_) fun k hk => ?_
      · rw [containersMade, hnone]
        rfl
      · rw [vault_changing, containersMade, hk]
        exact k.length_setPrivate data _
  | regenerate key =>
      refine length_withKey (fun hnone => ?_) fun k hk => ?_
      · rw [containersMade, secretAt, hnone]
        rfl
      · rw [vault_changing, containersMade, secretAt_eq hk]
        exact (k.outcome_regenerate _).length_eq (ho.key_live hk)
  | sign key digest =>
      refine length_withKey (fun hnone => ?_) fun k hk => ?_
      · rw [containersMade, secretAt, hnone]
        rfl
      · rw [containersMade, secretAt_eq hk]
        exact (k.outcome_sign digest _).length_eq (ho.key_live hk)
  | setPublic key data =>
      refine length_withKey (fun _ => rfl) fun k _ => ?_
      rw [vault_changing]
      rfl
  | setCompressed key value =>
      refine length_withKey (fun _ => rfl) fun k _ => ?_
      rw [vault_changing]
      rfl
  | close key =>
      exact length_withKey (fun _ => rfl) fun k _ => Vault.length_wipe? ring.vault k.secret
  | useOnce key =>
      exact length_withKey (fun _ => rfl) fun k _ => Vault.length_wipe? ring.vault k.secret
  | equals key other =>
      exact length_withKey (fun _ => rfl) fun _ _ => length_withKey (fun _ => rfl) fun _ _ => rfl
  | getPrivate key => exact hlooking key _
  | getPublic key => exact hlooking key _
  | publicPoint key => exact hlooking key _
  | toDer key => exact hlooking key _
  | verify key digest signature => exact hlooking key _
  | describe key => exact hlooking key _

/-! ## What becomes of containers -/

/-- Where the scalars are when `op` has answered, and left `after` behind. -/
structure Contained (backend : Backend P) (ring : Keyring P) (op : KeyOp)
    (answer : Except Failure KeyAnswer) (after : Keyring P) : Prop where
  /-- A container that was ever made is the live secret of exactly one key, or wiped. -/
  settled : ∀ h < after.vault.cells.length,
    ((after.vault.get h).isWiped = false ∧ ∃! i, after.secretAt i = some h)
      ∨ ((after.vault.get h).isWiped = true ∧ ∀ i, after.secretAt i ≠ some h)
  hasPrivate_iff : ∀ (i : Nat) (k : Key P), after.keys[i]? = some k →
    (k.hasPrivate = true ↔ ∃ h < after.vault.cells.length,
      k.secret = some h ∧ (after.vault.get h).isWiped = false)
  /-- A key keeps its own container or gets one that was not there before. -/
  fresh : ∀ i h, after.secretAt i = some h →
    ring.secretAt i = some h ∨ ring.vault.cells.length ≤ h
  made : after.vault.cells.length = ring.vault.cells.length + containersMade backend ring op
  /-- Of the containers that the operation made, all but one have been wiped again, -/
  one_live : ∀ h h', ring.vault.cells.length ≤ h → ring.vault.cells.length ≤ h' →
    (after.vault.get h).isWiped = false → (after.vault.get h').isWiped = false → h = h'
  /-- and all of them when it fails or signs. -/
  none_live : (∃ e, answer = .error e) ∨ (∃ key digest, op = .sign key digest) →
    ∀ h, ring.vault.cells.length ≤ h → (after.vault.get h).isWiped = true
  /-- What is no longer the secret of its key has been wiped. -/
  replaced : ∀ i h, ring.secretAt i = some h → after.secretAt i ≠ some h →
    (after.vault.get h).isWiped = true
  /-- A wiped container stays wiped. -/
  stays : ∀ h < ring.vault.cells.length, (ring.vault.get h).isWiped = true →
    (after.vault.get h).isWiped = true
  /-- Nothing is ever read from a wiped container. -/
  reads : answer ≠ .error (.fault .wiped)

/-- The containers of a keyring are accounted for. -/
theorem Owned.settled (ho : Owned ring) (h : Nat) :
    ((ring.vault.get h).isWiped = false ∧ ∃! i, ring.secretAt i = some h)
      ∨ ((ring.vault.get h).isWiped = true ∧ ∀ i, ring.secretAt i ≠ some h) := by
  cases hwiped : (ring.vault.get h).isWiped with
  | false =>
      obtain ⟨i, hi⟩ := ho.owner hwiped
      exact .inl ⟨rfl, i, hi, fun j hj => ho.apart hj hi⟩
  | true =>
      refine .inr ⟨rfl, fun i hi => ?_⟩
      rw [ho.live hi] at hwiped
      cases hwiped

theorem Owned.hasPrivate_iff (ho : Owned ring) {i : Nat} {k : Key P}
    (hk : ring.keys[i]? = some k) :
    k.hasPrivate = true ↔ ∃ h < ring.vault.cells.length,
      k.secret = some h ∧ (ring.vault.get h).isWiped = false := by
  rw [Key.hasPrivate, Option.isSome_iff_exists]
  constructor
  · rintro ⟨h, hs⟩
    exact ⟨h, ho.secret_lt hk h hs, hs, ho.key_live hk h hs⟩
  · rintro ⟨h, -, hs, -⟩
    exact ⟨h, hs⟩

namespace Moves

variable {answer : Except Failure KeyAnswer} {after : Keyring P}

theorem fresh (hm : Moves ring op (answer, after)) {i h : Nat} (hs : after.secretAt i = some h) :
    ring.secretAt i = some h ∨ ring.vault.cells.length ≤ h := by
  cases hm with
  | kept hv => exact .inl hs
  | handed j new _ hv hkeys =>
      rw [hkeys] at hs
      split at hs
      · next hi =>
        subst hs hi
        generalize ring.secretAt i = old at hv
        cases hv with
        | kept _ => exact .inl rfl
        | replaced hfresh _ _ => exact .inr hfresh
      · exact .inl hs

/-- A container that was there before is as it was, or wiped. -/
theorem get_of_lt (hm : Moves ring op (answer, after)) {h : Nat}
    (hlt : h < ring.vault.cells.length) :
    after.vault.get h = ring.vault.get h ∨ after.vault.get h = .wiped := by
  cases hm with
  | kept hv => exact .inl (hv.get_eq h)
  | handed _ _ _ hv _ => exact hv.get_of_lt hlt

/-- At most one of those that were not is live. -/
theorem eq_of_live (hm : Moves ring op (answer, after)) {h h' : Nat}
    (hge : ring.vault.cells.length ≤ h) (hge' : ring.vault.cells.length ≤ h')
    (hlive : (after.vault.get h).isWiped = false)
    (hlive' : (after.vault.get h').isWiped = false) : h = h' := by
  have hnew : ∃ new : Option Nat, ∀ {l}, ring.vault.cells.length ≤ l →
      (after.vault.get l).isWiped = false → new = some l := by
    cases hm with
    | kept hv =>
        refine ⟨none, fun hl hlive => ?_⟩
        rw [hv.get_eq, Vault.get_of_length_le hl] at hlive
        cases hlive
    | handed _ new _ hv _ =>
        refine ⟨new, fun hl hlive => ?_⟩
        rcases hv.get_of_length_le hl with hwiped | hnew
        · rw [hwiped] at hlive
          cases hlive
        · exact hnew
  obtain ⟨new, hnew⟩ := hnew
  exact Option.some.inj ((hnew hge hlive).symm.trans (hnew hge' hlive'))

/-- None of them is when the operation fails: what it made until then it has wiped. -/
theorem wiped_of_error {e : Failure} (hm : Moves ring op (.error e, after))
    (hlen : after.vault.cells.length
      = ring.vault.cells.length + containersMade backend ring op) {h : Nat}
    (hge : ring.vault.cells.length ≤ h) : after.vault.get h = .wiped := by
  cases hm with
  | kept hv => exact (hv.get_eq h).trans (Vault.get_of_length_le hge)
  | handed _ _ hok hv _ =>
      rcases hok with ⟨a, ha⟩ | ⟨key, rfl⟩
      · cases ha
      -- The block makes no container at all.
      · rw [containersMade, Nat.add_zero] at hlen
        exact Vault.get_of_length_le (hlen ▸ hge)

end Moves

/-- The copy that is signed with is wiped, whatever comes of it. -/
theorem kept_perform_sign (key : Nat) (digest : Argument) :
    ring.vault.Kept (ring.perform backend (.sign key digest)).2.vault := by
  rw [perform, withKey]
  split
  · exact Vault.Kept.refl _
  · next k _ => exact (k.outcome_sign digest _).kept

/-- What is no longer the secret of its key belongs to no other key, so it has been wiped. -/
theorem Owned.wiped_of_replaced (ho : Owned ring) {after : Keyring P} (hafter : Owned after)
    (hfresh : ∀ i h, after.secretAt i = some h →
      ring.secretAt i = some h ∨ ring.vault.cells.length ≤ h)
    {i h : Nat} (hs : ring.secretAt i = some h) (hne : after.secretAt i ≠ some h) :
    (after.vault.get h).isWiped = true := by
  rcases hafter.settled h with ⟨-, j, hj, -⟩ | ⟨hwiped, -⟩
  · have hlt := Vault.lt_length_of_live (ho.live hs)
    rcases hfresh j h hj with hold | hnew
    · obtain rfl := ho.apart hs hold
      exact absurd hj hne
    · omega
  · exact hwiped

/-- After every operation of every run, all scalars are where they belong. -/
theorem contained_run (backend : Backend P) (ops : List KeyOp) (op : KeyOp) :
    Contained backend (empty.run backend ops) op
      ((empty.run backend ops).perform backend op).1
      ((empty.run backend ops).perform backend op).2 := by
  have hr : Reachable backend (empty.run backend ops) := Reachable.empty.run ops
  generalize empty.run backend ops = ring at hr ⊢
  have ho := hr.owned
  have hafter := (hr.perform op).owned
  have hlen : (ring.perform backend op).2.vault.cells.length
      = ring.vault.cells.length + containersMade backend ring op := ho.length_perform op
  have hexpected : FailsOnly (Expected ring op) (ring.perform backend op).1 :=
    ho.failsOnly_perform op
  have hm : Moves ring op (ring.perform backend op) := ho.moves op
  have hsign : ∀ key digest, op = .sign key digest →
      ring.vault.Kept (ring.perform backend op).2.vault := by
    rintro key digest rfl
    exact kept_perform_sign key digest
  -- Nothing else is needed of what the operation does.
  generalize ring.perform backend op = result at hafter hlen hexpected hm hsign ⊢
  obtain ⟨answer, after⟩ := result
  constructor
  · exact fun h _ => hafter.settled h
  · exact fun i k hk => hafter.hasPrivate_iff hk
  · exact fun i h hs => hm.fresh hs
  · exact hlen
  · exact fun h h' hge hge' hlive hlive' => hm.eq_of_live hge hge' hlive hlive'
  · rintro (⟨e, rfl⟩ | ⟨key, digest, hop⟩) h hge
    · rw [hm.wiped_of_error hlen hge]
      rfl
    · rw [(hsign key digest hop).get_eq, Vault.get_of_length_le hge]
      rfl
  · exact fun i h hs hne => ho.wiped_of_replaced hafter (fun _ _ => hm.fresh) hs hne
  · intro h hlt hwiped
    rcases hm.get_of_lt hlt with hsame | hgone
    · rw [hsame, hwiped]
    · rw [hgone]
      rfl
  · rintro rfl
    -- Reading a wiped container is not among the failures that are documented.
    rcases hexpected _ rfl with harises | ⟨key, -, -, hunknown⟩
    · exact harises.ne_fault .wiped nofun rfl
    · cases hunknown

end SecpKey.Keyring
