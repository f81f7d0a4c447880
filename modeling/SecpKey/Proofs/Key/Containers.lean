/-
  SecpKey.Proofs.Key.Containers

  What the operations of a key do to the vault.  `Accounts` is the law of an operation: it
  hands over the container of the key when it succeeds, and changes nothing when it fails.
  The counts at the end say how many containers it takes, those it wipes again included.
-/
import SecpKey.Proofs.Key.Outcome

namespace SecpKey

/-- Failing leaves the vault as it was; succeeding hands the container over to the one of
the result. -/
def Accounts {α : Type} (v : Vault) (old : Option Nat) (secret : α → Option Nat) :
    Outcome α → Prop
  | (.error _, w) => v.Kept w
  | (.ok a, w) => Handover v w old (secret a)

namespace Key

variable {P : Type} {backend : Backend P}

/-- The secret of the key, if there is one, has not been wiped. -/
def Live (k : Key P) (v : Vault) : Prop := ∀ h, k.secret = some h → (v.get h).isWiped = false

theorem Live.exists_get {k : Key P} {v : Vault} (hk : k.Live v) {h : Nat}
    (hs : k.secret = some h) : ∃ buffer, v.get h = .live buffer := Vault.exists_get (hk h hs)

theorem Live.ne_wiped {k : Key P} {v : Vault} (hk : k.Live v) {h : Nat}
    (hs : k.secret = some h) : v.get h ≠ .wiped := by
  obtain ⟨buffer, hcell⟩ := hk.exists_get hs
  rw [hcell]
  exact fun hwiped => nomatch hwiped

/-! ## Making keys -/

/-- Candidates that are turned down leave no trace, and neither does a failing draw. -/
theorem GenerateOutcome.accounts {draws : List Draw} {v : Vault}
    {o : Outcome (Key P × List Draw)} (h : GenerateOutcome backend draws v o) :
    Accounts v none (fun made => made.1.secret) o := by
  cases h with
  | failed hv _ => exact hv
  | made hv _ _ _ => exact (Handover.put rfl).of_kept hv

theorem ImportOutcome.accounts {v : Vault} {a : Argument} {o : Outcome (Key P)}
    (h : ImportOutcome backend v a o) : Accounts v none Key.secret o := by
  cases h with
  | unread _ => exact Vault.Kept.refl v
  | undecoded _ => exact Vault.Kept.refl v
  | refused _ _ => exact Vault.kept_put_wipe v _
  | made _ => exact Handover.put rfl

/-! ## Changing keys -/

theorem accounts_setPrivate (k : Key P) (data : Argument) {v : Vault}
    (hold : ∀ h, k.secret = some h → h < v.cells.length) :
    Accounts v k.secret Key.secret (k.setPrivate data v) := by
  unfold setPrivate
  split
  · exact Vault.Kept.refl v
  · exact Handover.put_wipe? rfl hold

theorem accounts_setPublic (k : Key P) (data : Argument) (v : Vault) :
    Accounts v k.secret Key.secret (k.setPublic backend data, v) := by
  cases hset : k.setPublic backend data with
  | error e => exact Vault.Kept.refl v
  | ok l =>
      have hsecret : l.secret = k.secret := by
        unfold setPublic at hset
        split at hset
        · cases hset
        split at hset
        · cases hset
        · cases hset
          rfl
      show Handover v v k.secret l.secret
      rw [hsecret]
      exact .kept (Vault.Kept.refl v)

theorem RegenerateOutcome.accounts {k : Key P} {v : Vault} {o : Outcome (Key P)}
    (h : RegenerateOutcome backend k v o) : Accounts v k.secret Key.secret o := by
  cases h with
  | missing _ => exact Vault.Kept.refl v
  | wiped _ _ => exact Vault.Kept.refl v
  | refused _ _ => exact Vault.kept_put_wipe v _
  | @made old buffer _ hs hv _ _ =>
      -- A live container has been given out before, so the copy is another one.
      have hlt : old < v.cells.length := Vault.lt_length_of_live (by rw [hv]; rfl)
      show Handover v ((v.put (.live buffer)).2.wipe old) k.secret (some v.cells.length)
      rw [hs]
      refine Handover.put_wipe? (o := some old) rfl ?_
      rintro _ ⟨⟩
      exact hlt

theorem accounts_setCompressed (k : Key P) (value : Argument) (v : Vault) :
    Accounts v k.secret Key.secret (k.setCompressed value, v) := by
  rw [setCompressed]
  cases value.truth with
  | error e => exact Vault.Kept.refl v
  | ok compressed => exact Handover.kept (Vault.Kept.refl v)

theorem handover_close (k : Key P) (v : Vault) :
    Handover v (k.close v).2 k.secret (k.close v).1.secret :=
  .dropped (Vault.length_wipe? v k.secret).ge (Vault.get_wipe? v k.secret)

/-! ## Signing -/

/-- The copy that is signed with is wiped, whatever comes of it. -/
theorem SignOutcome.kept {k : Key P} {digest : Argument} {v : Vault} {o : Outcome Bytes}
    (h : SignOutcome backend k digest v o) : v.Kept o.2 := by
  cases h with
  | missing _ => exact Vault.Kept.refl v
  | badDigest _ => exact Vault.Kept.refl v
  | wiped _ _ => exact Vault.Kept.refl v
  | signed _ _ _ _ => exact Vault.kept_put_wipe v _

/-! ## Counting -/

/-- Every candidate that is drawn has a container of its own. -/
theorem GenerateOutcome.length_eq {draws : List Draw} {v : Vault}
    {o : Outcome (Key P × List Draw)} (h : GenerateOutcome backend draws v o) :
    o.2.cells.length = v.cells.length + drawn draws := by
  cases h with
  | failed _ hlen => exact hlen
  | made _ hlen _ _ => rw [Vault.length_put, hlen]

/-- The scalar of an import has a container as soon as it is decoded. -/
theorem ImportOutcome.length_eq {v : Vault} {a : Argument} {o : Outcome (Key P)}
    (h : ImportOutcome backend v a o) :
    o.2.cells.length = v.cells.length
      + (a.ensureBytes "der" >>= EcPrivateKey.decode backend .secp256k1).isOk.toNat := by
  cases h with
  | unread h =>
      rw [h]
      rfl
  | undecoded h =>
      simp only [Argument.ensureBytes, bind, Except.bind, h]
      rfl
  | refused h _ =>
      simp only [Argument.ensureBytes, bind, Except.bind, h, Vault.length_wipe, Vault.length_put]
      rfl
  | made h =>
      simp only [Argument.ensureBytes, bind, Except.bind, h.decoded, Vault.length_put]
      rfl

theorem length_setPrivate (k : Key P) (data : Argument) (v : Vault) :
    (k.setPrivate data v).2.cells.length
      = v.cells.length + (data.ensureBytes "private").isOk.toNat := by
  unfold setPrivate
  cases data.ensureBytes "private" with
  | error e => rfl
  | ok bytes =>
      dsimp only [Except.isOk, Except.toBool, Bool.toNat_true]
      rw [Vault.length_wipe?, Vault.length_put]

/-- A live secret is copied before anything else is done. -/
theorem RegenerateOutcome.length_eq {k : Key P} {v : Vault} {o : Outcome (Key P)}
    (h : RegenerateOutcome backend k v o) (hk : k.Live v) :
    o.2.cells.length = v.cells.length + k.hasPrivate.toNat := by
  rw [hasPrivate]
  cases h with
  | missing hs =>
      rw [hs]
      rfl
  | wiped hs hv => exact absurd hv (hk.ne_wiped hs)
  | refused hs _ =>
      rw [Vault.length_wipe, Vault.length_put, hs]
      rfl
  | made hs _ _ _ =>
      rw [Vault.length_wipe, Vault.length_put, hs]
      rfl

/-- A live secret is copied as soon as the digest is accepted. -/
theorem SignOutcome.length_eq {k : Key P} {digest : Argument} {v : Vault} {o : Outcome Bytes}
    (h : SignOutcome backend k digest v o) (hk : k.Live v) :
    o.2.cells.length
      = v.cells.length + (k.hasPrivate && (ensureDigest digest).isOk).toNat := by
  rw [hasPrivate]
  cases h with
  | missing hs =>
      rw [hs]
      rfl
  | badDigest h =>
      rw [h]
      cases k.secret.isSome with
      | false => rfl
      | true => rfl
  | wiped hs hv => exact absurd hv (hk.ne_wiped hs)
  | signed hs _ hdigest _ =>
      rw [Vault.length_wipe, Vault.length_put, hs, hdigest]
      rfl

end Key

end SecpKey
