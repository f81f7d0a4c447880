/-
  SecpKey.Proofs.Keyring.Ownership

  Who holds which container.  In every keyring that operations lead to, the secret of a
  key is a live container, no two keys share one, and every live container is the secret
  of a key (`Reachable.owned`).  `Owned.moves` says once what an operation can do: nothing
  at all, or have one key hand its container over, and then `Owned.handover` keeps the
  rest as it was.
-/
import SecpKey.Keyring
import SecpKey.Proofs.Key.Containers

namespace SecpKey.Keyring

variable {P : Type} {backend : Backend P} {ring : Keyring P}

/-- The keyrings that operations lead to. -/
inductive Reachable (backend : Backend P) : Keyring P → Prop
  | empty : Reachable backend .empty
  | perform {ring : Keyring P} (h : Reachable backend ring) (op : KeyOp) :
      Reachable backend (ring.perform backend op).2

/-- Carry out operations one after the other, whether they succeed or fail. -/
def run (backend : Backend P) (ring : Keyring P) (ops : List KeyOp) : Keyring P :=
  ops.foldl (fun ring op => (ring.perform backend op).2) ring

theorem Reachable.run (h : Reachable backend ring) (ops : List KeyOp) :
    Reachable backend (ring.run backend ops) := by
  induction ops generalizing ring with
  | nil => exact h
  | cons op rest ih => exact ih (h.perform op)

/-- The container of a key; none for a number not given out. -/
def secretAt (ring : Keyring P) (key : Nat) : Option Nat := (ring.keys[key]?).bind (·.secret)

theorem secretAt_eq {key : Nat} {k : Key P} (hk : ring.keys[key]? = some k) :
    ring.secretAt key = k.secret := by
  rw [secretAt, hk, Option.bind_some]

/-- Live containers and the secrets of keys match one to one. -/
structure Owned (ring : Keyring P) : Prop where
  live : ∀ {i h : Nat}, ring.secretAt i = some h → (ring.vault.get h).isWiped = false
  apart : ∀ {i j h : Nat}, ring.secretAt i = some h → ring.secretAt j = some h → i = j
  owner : ∀ {h : Nat}, (ring.vault.get h).isWiped = false → ∃ i, ring.secretAt i = some h

theorem owned_empty : Owned (.empty : Keyring P) where
  live h := nomatch h
  apart h := nomatch h
  owner h := nomatch h

/-! ## One key hands over -/

namespace Owned

section

variable {after : Keyring P} {i : Nat}

/-- No other key has the container of key `i`. -/
theorem ne_of_ne (ho : Owned ring) {j h : Nat} (hj : j ≠ i) (hs : ring.secretAt j = some h) :
    ring.secretAt i ≠ some h := fun h0 => hj (ho.apart hs h0)

theorem of_same (ho : Owned ring) (hget : ∀ h, after.vault.get h = ring.vault.get h)
    (hkeys : ∀ j, after.secretAt j = ring.secretAt j) : Owned after where
  live hs := by
    rw [hget]
    exact ho.live (hkeys _ ▸ hs)
  apart hs ht := ho.apart (hkeys _ ▸ hs) (hkeys _ ▸ ht)
  owner hl := by
    rw [hget] at hl
    obtain ⟨j, hj⟩ := ho.owner hl
    exact ⟨j, (hkeys j).trans hj⟩

/-- What is still live after the container of key `i` was wiped belongs to another key. -/
theorem owner_of_wiped (ho : Owned ring) {h : Nat}
    (hl : (if ring.secretAt i = some h then .wiped else ring.vault.get h).isWiped = false) :
    ∃ j, j ≠ i ∧ ring.secretAt j = some h := by
  split at hl
  · cases hl
  next hne =>
  obtain ⟨j, hj⟩ := ho.owner hl
  refine ⟨j, ?_, hj⟩
  rintro rfl
  exact hne hj

theorem drop (ho : Owned ring)
    (hget : ∀ h, after.vault.get h
      = if ring.secretAt i = some h then .wiped else ring.vault.get h)
    (hkeys : ∀ j, after.secretAt j = if j = i then none else ring.secretAt j) : Owned after := by
  have hold : ∀ {j h}, after.secretAt j = some h → j ≠ i ∧ ring.secretAt j = some h := by
    intro j h hs
    rw [hkeys] at hs
    split at hs
    · cases hs
    · next hj => exact ⟨hj, hs⟩
  constructor
  · intro j h hs
    obtain ⟨hj, hs⟩ := hold hs
    rw [hget, if_neg (ho.ne_of_ne hj hs)]
    exact ho.live hs
  · intro j l h hs ht
    exact ho.apart (hold hs).2 (hold ht).2
  · intro h hl
    rw [hget] at hl
    obtain ⟨j, hj, hs⟩ := ho.owner_of_wiped hl
    exact ⟨j, by rw [hkeys, if_neg hj, hs]⟩

theorem replace {new : Nat} (ho : Owned ring) (hfresh : ring.vault.cells.length ≤ new)
    (hlive : (after.vault.get new).isWiped = false)
    (hget : ∀ h, h ≠ new → after.vault.get h
      = if ring.secretAt i = some h then .wiped else ring.vault.get h)
    (hkeys : ∀ j, after.secretAt j = if j = i then some new else ring.secretAt j) :
    Owned after := by
  -- A container that a key had before is not the new one.
  have hcases : ∀ {j h}, after.secretAt j = some h →
      (j = i ∧ h = new) ∨ (j ≠ i ∧ h ≠ new ∧ ring.secretAt j = some h) := by
    intro j h hs
    rw [hkeys] at hs
    split at hs
    · next hj => exact Or.inl ⟨hj, (Option.some.inj hs).symm⟩
    · next hj =>
      have := Vault.lt_length_of_live (ho.live hs)
      exact Or.inr ⟨hj, by omega, hs⟩
  constructor
  · intro j h hs
    rcases hcases hs with ⟨-, rfl⟩ | ⟨hj, hn, hs⟩
    · exact hlive
    · rw [hget h hn, if_neg (ho.ne_of_ne hj hs)]
      exact ho.live hs
  · intro j l h hs ht
    rcases hcases hs with ⟨hj, hn⟩ | ⟨-, hn, hs⟩
    · rcases hcases ht with ⟨hl, -⟩ | ⟨-, hn', -⟩
      · rw [hj, hl]
      · exact absurd hn hn'
    · rcases hcases ht with ⟨-, hn'⟩ | ⟨-, -, ht⟩
      · exact absurd hn' hn
      · exact ho.apart hs ht
  · intro h hl
    by_cases hn : h = new
    · exact ⟨i, by rw [hkeys, if_pos rfl, hn]⟩
    · rw [hget h hn] at hl
      obtain ⟨j, hj, hs⟩ := ho.owner_of_wiped hl
      exact ⟨j, by rw [hkeys, if_neg hj, hs]⟩

/-- Only key `i` may have changed, and its container was handed over. -/
theorem handover {new : Option Nat} (ho : Owned ring)
    (hv : Handover ring.vault after.vault (ring.secretAt i) new)
    (hkeys : ∀ j, after.secretAt j = if j = i then new else ring.secretAt j) : Owned after := by
  generalize hold : ring.secretAt i = old at hv
  cases hv with
  | kept hk =>
      refine ho.of_same hk.get_eq fun j => ?_
      rw [hkeys]
      split
      · next hj => rw [hj, hold]
      · rfl
  | dropped _ hget => exact ho.drop (hold ▸ hget) hkeys
  | @replaced new hfresh hlive hget => exact ho.replace hfresh hlive (hold ▸ hget) hkeys

end

/-- A key's container is live. -/
theorem key_live {key : Nat} {k : Key P} (ho : Owned ring) (hk : ring.keys[key]? = some k) :
    k.Live ring.vault := fun _ hs => ho.live ((secretAt_eq hk).trans hs)

/-- A key's container was given out. -/
theorem secret_lt {key : Nat} {k : Key P} (ho : Owned ring) (hk : ring.keys[key]? = some k) :
    ∀ h, k.secret = some h → h < ring.vault.cells.length := fun h hs =>
  Vault.lt_length_of_live (ho.key_live hk h hs)

end Owned

/-! ## What an operation does -/

/-- What carrying out `op` does to the keyring, next to what it answers. -/
inductive Moves (ring : Keyring P) (op : KeyOp) : Except Failure KeyAnswer × Keyring P → Prop
  /-- Keys and live containers are as they were. -/
  | kept {answer : Except Failure KeyAnswer} {v : Vault} (hv : ring.vault.Kept v) :
      Moves ring op (answer, { ring with vault := v })
  /-- Key `i` hands its container over.  With this the operation has succeeded, unless it is the
  block that closes a key whatever comes of reading it. -/
  | handed {answer : Except Failure KeyAnswer} {after : Keyring P} (i : Nat) (new : Option Nat)
      (hok : (∃ a, answer = .ok a) ∨ ∃ key, op = .useOnce key)
      (hv : Handover ring.vault after.vault (ring.secretAt i) new)
      (hkeys : ∀ j, after.secretAt j = if j = i then new else ring.secretAt j) :
      Moves ring op (answer, after)

namespace Moves

variable {op : KeyOp} {key : Nat}

theorem looking (answer : Except Failure KeyAnswer) : Moves ring op (ring.looking answer) :=
  .kept (Vault.Kept.refl _)

theorem making {outcome : Outcome (Key P × List Draw)}
    (ha : Accounts ring.vault none (fun made => made.1.secret) outcome) :
    Moves ring op (ring.making outcome) := by
  rcases outcome with ⟨e | ⟨k, left⟩, w⟩
  · exact .kept ha
  · have hnone : ring.secretAt ring.keys.length = none := by
      rw [secretAt, List.getElem?_eq_none (Nat.le_refl _), Option.bind_none]
    refine .handed ring.keys.length k.secret (.inl ⟨_, rfl⟩) (hnone.symm ▸ ha) fun j => ?_
    show ((ring.keys ++ [k])[j]?).bind (·.secret) = _
    rw [secretAt]
    split
    · next hj => rw [hj, List.getElem?_concat_length, Option.bind_some]
    -- Another number is that of an older key, or of none in both keyrings.
    · next hj =>
      rcases Nat.lt_or_gt_of_ne hj with hlt | hgt
      · rw [List.getElem?_append_left hlt]
      · rw [List.getElem?_eq_none hgt.le, List.getElem?_eq_none]
        rw [List.length_append, List.length_singleton]
        omega

theorem changing {k : Key P} {outcome : Outcome (Key P)} (hk : ring.keys[key]? = some k)
    (ha : Accounts ring.vault k.secret Key.secret outcome) :
    Moves ring op (ring.changing key outcome) := by
  rcases outcome with ⟨e | l, w⟩
  · exact .kept ha
  · refine .handed key l.secret (.inl ⟨_, rfl⟩) ((secretAt_eq hk).symm ▸ ha) fun j => ?_
    have hlt := (List.getElem?_eq_some_iff.mp hk).1
    show ((ring.keys.set key l)[j]?).bind (·.secret) = _
    rw [secretAt]
    split
    · next hj => rw [hj, List.getElem?_set_self hlt, Option.bind_some]
    · next hj => rw [List.getElem?_set_ne (Ne.symm hj)]

theorem withKey {act : Key P → Except Failure KeyAnswer × Keyring P}
    (h : ∀ k, ring.keys[key]? = some k → Moves ring op (act k)) :
    Moves ring op (ring.withKey key act) := by
  rw [Keyring.withKey]
  split
  · exact looking _
  · next k hk => exact h k hk

/-- The block closes the key, whatever it answers. -/
theorem answering {result : Except Failure KeyAnswer × Keyring P}
    (h : Moves ring (.useOnce key) result) (answer : Except Failure KeyAnswer) :
    Moves ring (.useOnce key) (answer, result.2) := by
  cases h with
  | kept hv => exact .kept hv
  | handed i new _ hv hkeys => exact .handed i new (.inr ⟨key, rfl⟩) hv hkeys

/-- What is done keeps ownership. -/
theorem owned {result : Except Failure KeyAnswer × Keyring P} (h : Moves ring op result)
    (ho : Owned ring) : Owned result.2 := by
  cases h with
  | kept hv => exact ho.of_same hv.get_eq fun _ => rfl
  | handed i new _ hv hkeys => exact ho.handover hv hkeys

end Moves

/-- Every operation leaves all as it was, or has one key hand its container over. -/
theorem Owned.moves (ho : Owned ring) (op : KeyOp) : Moves ring op (ring.perform backend op) := by
  -- First what makes a key, then what changes one, and last what only looks.
  cases op with
  | new =>
      rw [Keyring.perform]
      exact .making (Handover.kept (Vault.Kept.refl _))
  | generate draws => exact .making (Key.outcome_generate draws _).accounts
  | ofDer data =>
      have ha : Accounts ring.vault none Key.secret (Key.ofDer backend data ring.vault) :=
        (Key.outcome_ofDer data ring.vault).accounts
      -- The key is paired with the draws that are left, which are none.
      rw [Keyring.perform]
      rcases hmade : Key.ofDer backend data ring.vault with ⟨e | k, w⟩
      · rw [hmade] at ha
        exact .making ha
      · rw [hmade] at ha
        exact .making ha
  | setPrivate key data =>
      exact .withKey fun k hk => .changing hk (k.accounts_setPrivate data (ho.secret_lt hk))
  | setPublic key data => exact .withKey fun k hk => .changing hk (k.accounts_setPublic data _)
  | setCompressed key value =>
      exact .withKey fun k hk => .changing hk (k.accounts_setCompressed value _)
  | regenerate key => exact .withKey fun k hk => .changing hk (k.outcome_regenerate _).accounts
  | close key => exact .withKey fun k hk => .changing hk (k.handover_close _)
  | useOnce key =>
      refine .withKey fun k hk => ?_
      have hclose : Moves ring (.useOnce key)
          (ring.changing key (.ok (k.close ring.vault).1, (k.close ring.vault).2)) :=
        .changing hk (k.handover_close _)
      exact hclose.answering _
  | sign key digest => exact .withKey fun k _ => .kept (k.outcome_sign digest _).kept
  | equals key other => exact .withKey fun _ _ => .withKey fun _ _ => .looking _
  | getPrivate key => exact .withKey fun _ _ => .looking _
  | getPublic key => exact .withKey fun _ _ => .looking _
  | publicPoint key => exact .withKey fun _ _ => .looking _
  | toDer key => exact .withKey fun _ _ => .looking _
  | verify key digest signature => exact .withKey fun _ _ => .looking _
  | describe key => exact .withKey fun _ _ => .looking _

/-- Every operation keeps ownership, whether it succeeds or fails. -/
theorem Owned.perform (ho : Owned ring) (op : KeyOp) : Owned (ring.perform backend op).2 :=
  (ho.moves op).owned ho

/-- Ownership holds in every keyring that operations lead to. -/
theorem Reachable.owned (h : Reachable backend ring) : Owned ring := by
  induction h with
  | empty => exact owned_empty
  | perform _ op ih => exact ih.perform op

end SecpKey.Keyring
