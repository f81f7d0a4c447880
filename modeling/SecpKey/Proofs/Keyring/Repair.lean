/-
  SecpKey.Proofs.Keyring.Repair

  Setters can leave a key with any scalar next to any point.  Operations that need the scalar
  agree about which ones will do (`UsersAgree`), however many bytes it is held in, and deriving
  the point anew makes a key with a scalar in range whole: from then on its halves match, so it
  survives export and import as long as neither of them is replaced (`Repaired`).
-/
import SecpKey.Proofs.Keyring.Observation
import SecpKey.Proofs.Keyring.Secrecy

namespace SecpKey

variable {P E : Type} [AddGroup E] {backend : Backend P}

/-- An operation succeeds exactly if `c` holds, and fails in one class otherwise. -/
structure SucceedsIff (answer : Except Failure KeyAnswer) (c : Prop) (cls : ErrorClass) :
    Prop where
  ok_iff : (∃ a, answer = .ok a) ↔ c
  refused : FailsOnly (·.errorClass? = some cls) answer

namespace SucceedsIff

variable {answer : Except Failure KeyAnswer} {c : Prop} {cls : ErrorClass}

theorem of_ok {a : KeyAnswer} (h : answer = .ok a) (hc : c) : SucceedsIff answer c cls where
  ok_iff := ⟨fun _ => hc, fun _ => ⟨a, h⟩⟩
  refused := h ▸ .ok a

theorem of_error {e : Failure} (h : answer = .error e) (hclass : e.errorClass? = some cls)
    (hc : ¬ c) : SucceedsIff answer c cls where
  ok_iff := by
    refine ⟨?_, fun h => absurd h hc⟩
    rintro ⟨a, ha⟩
    rw [h] at ha
    cases ha
  refused := h ▸ .error hclass

end SucceedsIff

/-! ## The range of a scalar -/

namespace Material

variable {m : Material P} {v : Nat} {Q : P}

theorem succeedsIff_getPrivate (hs : m.scalar = some v) :
    SucceedsIff (m.getPrivate.map .bytes?) (v < 2 ^ 256) .encoding
      ∧ (v < 2 ^ 256 →
          m.getPrivate.map KeyAnswer.bytes? = .ok (.bytes? (some (Bytes.ofNat 32 v)))) := by
  have hwidth : 256 ^ scalarSize = 2 ^ 256 := by decide
  have hget : m.getPrivate = (secretBytes v).map some := by rw [getPrivate, hs]
  rw [hget, secretBytes, hwidth]
  split
  · next hlt => exact ⟨.of_ok rfl hlt, fun _ => rfl⟩
  · next hge => exact ⟨.of_error rfl rfl hge, fun hlt => absurd hlt hge⟩

/-- The backend is asked about every scalar that fits 32 bytes, and no other one is in range. -/
theorem succeedsIff_sign {digest : Bytes}
    (hadmits : ∀ {d : Nat}, backend.admits d = true ↔ 1 ≤ d ∧ d < groupOrder)
    (hs : m.scalar = some v) (hlen : digest.length = digestSize)
    (hsign : m.Signable backend (.bytes digest)) :
    SucceedsIff ((m.sign backend (.bytes digest)).map .bytes) (1 ≤ v ∧ v < groupOrder)
      .signing := by
  have hdigest : ensureDigest (.bytes digest) = .ok digest := if_pos hlen
  rw [sign, hs]
  dsimp only
  rw [hdigest]
  dsimp only
  -- In range both tests pass; out of range the backend turns the scalar down, if nothing does
  -- before.
  by_cases hrange : 1 ≤ v ∧ v < groupOrder
  · have hfits : v < 256 ^ scalarSize := Nat.lt_trans hrange.2 (by decide)
    obtain ⟨signature, hsignature⟩ := hsign digest v hdigest hs hrange
    rw [if_pos ⟨hfits, hadmits.mpr hrange⟩, hsignature]
    exact .of_ok rfl hrange
  · rw [if_neg fun h => hrange (hadmits.mp h.2)]
    exact .of_error rfl rfl hrange

theorem regenerate_of_range (hs : m.scalar = some v) (hd : 1 ≤ v ∧ v < groupOrder)
    (hQ : backend.ofScalar v = .ok Q) :
    m.regenerate backend = .ok { m with point := some Q } := by
  rw [regenerate, hs]
  dsimp only
  rw [if_pos (isValidScalar_natCast.mpr hd), hQ]

theorem regenerate_of_not_range (hs : m.scalar = some v) (hd : ¬ (1 ≤ v ∧ v < groupOrder)) :
    m.regenerate backend = .error (.precondition .regenerateOutOfRange) := by
  rw [regenerate, hs]
  dsimp only
  rw [if_neg fun h => hd (isValidScalar_natCast.mp h)]

/-! ## Whole keys -/

/-- The scalar is `v`, and the point is `Q`, which the backend made of it. -/
structure Whole (backend : Backend P) (v : Nat) (Q : P) (m : Material P) : Prop where
  scalar : m.scalar = some v
  point : m.point = some Q
  ofScalar : backend.ofScalar v = .ok Q
  range : 1 ≤ v ∧ v < groupOrder

theorem Whole.regenerate (h : m.Whole backend v Q) : m.regenerate backend = .ok m := by
  rw [regenerate_of_range h.scalar h.range h.ofScalar, ← h.point]

end Material

/-- The operation may put another half in place, or none. -/
def KeyUse.replaces : KeyUse → Bool
  | .setPrivate _ | .setPublic _ | .close | .useOnce => true
  | _ => false

/-- The halves of key `i` are not replaced. -/
def KeyOp.LeavesHalves (i : Nat) (op : KeyOp) : Prop :=
  ∀ use : KeyUse, op = use.on i → use.replaces = false

/-- Any other operation leaves a whole key whole, also when it derives the point once more. -/
theorem Material.Whole.use {m : Material P} {v : Nat} {Q : P} (h : m.Whole backend v Q)
    {use : KeyUse} (hleaves : use.replaces = false) : (m.use backend use).2.Whole backend v Q := by
  cases use with
  | setPrivate data => cases hleaves
  | setPublic data => cases hleaves
  | close => cases hleaves
  | useOnce => cases hleaves
  | regenerate =>
      rw [Material.use, h.regenerate]
      exact h
  | setCompressed value =>
      rw [Material.use, Material.setCompressed]
      cases value.truth with
      | error e => exact h
      | ok compressed => exact ⟨h.scalar, h.point, h.ofScalar, h.range⟩
  | getPrivate => exact h
  | getPublic => exact h
  | publicPoint => exact h
  | toDer => exact h
  | sign digest => exact h
  | verify digest signature => exact h
  | describe => exact h

namespace Keyring

variable {ring after : Keyring P} {i v : Nat} {Q : P} {digest : Bytes}

/-- Key `i` is whole. -/
def IsWhole (backend : Backend P) (ring : Keyring P) (i v : Nat) (Q : P) : Prop :=
  ∃ m, ring.material? i = some m ∧ m.Whole backend v Q

namespace IsWhole

theorem perform (h : IsWhole backend ring i v Q) (ho : Owned ring) {op : KeyOp}
    (hleaves : op.LeavesHalves i) : IsWhole backend (ring.perform backend op).2 i v Q := by
  obtain ⟨m, hm, hwhole⟩ := h
  cases kind backend op with
  | on j use =>
      by_cases hj : i = j
      · subst hj
        have huse := (uses_perform backend ho hm use).material i
        rw [if_pos rfl] at huse
        exact ⟨_, huse, hwhole.use (hleaves use rfl)⟩
      · cases hother : ring.keys[j]? with
        | none =>
            rw [perform_on_of_missing hother]
            exact ⟨m, hm, hwhole⟩
        | some k =>
            have hk : ring.material? j = some (k.material ring.vault) := by
              rw [material?, hother, Option.map_some]
            have huse := (uses_perform backend ho hk use).material i
            rw [if_neg hj] at huse
            exact ⟨m, huse.trans hm, hwhole⟩
  | equals j l =>
      rw [ho.perform_equals]
      exact ⟨m, hm, hwhole⟩
  | making x hmaking =>
      have hseen := congrArg Prod.snd (hmaking ho)
      refine ⟨m, ?_, hwhole⟩
      rw [← getElem?_materials] at hm ⊢
      have hadded := getElem?_addMaterial x hm
      rwa [← hseen] at hadded

/-- A whole key stays whole for as long as its halves are left to it. -/
theorem run (h : IsWhole backend ring i v Q) (ho : Owned ring) {ops : List KeyOp}
    (hleaves : ∀ op ∈ ops, op.LeavesHalves i) :
    IsWhole backend (ring.run backend ops) i v Q := by
  -- On the operations, for all keyrings: each one leaves a whole key behind.
  induction ops generalizing ring with
  | nil => exact h
  | cons op rest ih =>
      rw [List.forall_mem_cons] at hleaves
      exact ih (h.perform ho hleaves.1) (ho.perform op) hleaves.2

theorem holdsScalar (h : IsWhole backend ring i v Q) : ring.HoldsScalar i v := by
  obtain ⟨m, hm, hwhole⟩ := h
  exact holdsScalar_of_material? hm hwhole.scalar

theorem point? (h : IsWhole backend ring i v Q) : ring.point? i = some Q := by
  obtain ⟨m, hm, hwhole⟩ := h
  obtain ⟨k, hk, rfl⟩ := exists_key_of_material? hm
  rw [Keyring.point?, hk, Option.bind_some]
  exact hwhole.point

end IsWhole

/-! ## Export and import -/

/-- Key `i` is exported, and what is imported from the export is equal to it. -/
def RoundTrips (backend : Backend P) (ring : Keyring P) (i : Nat) : Prop :=
  ∃ der both, ring.perform backend (.toDer i) = (.ok (.bytes? (some der)), ring)
    ∧ ring.perform backend (.ofDer (.bytes der)) = (.ok (.made ring.keys.length []), both)
    ∧ AreEqual backend both ring.keys.length i ∧ AreEqual backend both i ring.keys.length

/-- A key with both halves is exported if its scalar fits 32 bytes. -/
theorem toDer_cases (𝔾 : PointGroup backend E) (hr : Reachable backend ring)
    (hv : ring.HoldsScalar i v) (hp : ring.point? i = some Q) :
    (2 ^ 256 ≤ v ∧ ring.perform backend (.toDer i) = (.error (.encoding .secretTooLarge), ring))
      ∨ (v < 2 ^ 256 ∧ ∃ der, ring.perform backend (.toDer i) = (.ok (.bytes? (some der)), ring)
          ∧ Imported 𝔾 ring i v Q der ring) := by
  have hwidth : 256 ^ 32 = 2 ^ 256 := by decide
  obtain ⟨k, hk, hpoint⟩ := exists_key_of_point? hp
  obtain ⟨h, buffer, hs, hcell, hval⟩ := hv
  have hto : ring.perform backend (.toDer i)
      = ((k.toDer backend ring.vault).map .bytes?, ring) := by
    rw [perform, withKey, hk]
    rfl
  obtain ⟨d, hd, hcases⟩ := exported_or_tooLarge 𝔾 hr hk ((secretAt_eq hk).symm.trans hs) hpoint
  obtain rfl := hd.eq ⟨h, buffer, hs, hcell, hval⟩
  rw [hwidth] at hcases
  rw [hto]
  rcases hcases with ⟨hge, herr⟩ | ⟨hlt, der, hder, himport⟩
  · rw [herr]
    exact .inl ⟨hge, rfl⟩
  · rw [hder]
    exact .inr ⟨hlt, der, rfl, himport ring⟩

/-- A key whose halves match survives export and import. -/
theorem roundTrips_of_matches (𝔾 : PointGroup backend E) (hr : Reachable backend ring)
    (hv : ring.HoldsScalar i v) (hp : ring.point? i = some Q) (hmatch : 𝔾.Matches v Q) :
    RoundTrips backend ring i := by
  rcases toDer_cases 𝔾 hr hv hp with ⟨hge, -⟩ | ⟨-, der, hder, himported⟩
  · exact absurd hmatch.1.2 (Nat.not_lt.mpr (Nat.le_trans (by decide) hge))
  · obtain ⟨answer, hok⟩ := himported.succeeds_iff.mpr hmatch
    rcases hperform : ring.perform backend (.ofDer (.bytes der)) with ⟨x, both⟩
    rw [hperform] at hok
    obtain rfl : x = .ok answer := hok
    obtain ⟨rfl, -⟩ := himported.made answer both hperform
    obtain ⟨hequal, hequal'⟩ := himported.equal _ both i hperform hv hp
    exact ⟨der, both, hder, hperform, congrArg Prod.fst hequal, congrArg Prod.fst hequal'⟩

/-! ## Deriving the point -/

/-- What key `i`, which holds the scalar `v`, is after its point was derived anew. -/
structure Repaired (𝔾 : PointGroup backend E) (ring : Keyring P) (i v : Nat) (Q : P)
    (after : Keyring P) : Prop where
  holds : after.HoldsScalar i v
  form : after.form i = ring.form i
  /-- The point is the multiple of the generator, whatever it was before. -/
  point : after.point? i = some Q ∧ 𝔾.Matches v Q
  publicPoint : (after.perform backend (.publicPoint i)).1
    = .ok (.point? (some (backend.coordinates Q)))
  others : ∀ j, j ≠ i → after.material? j = ring.material? j
  /-- Deriving it once more changes nothing that can be observed, then or later. -/
  again : ∃ again, after.perform backend (.regenerate i) = (.ok .done, again)
    ∧ ∀ ops, again.transcript backend ops = after.transcript backend ops
  /-- Scalar and point stay unless one of them is replaced, -/
  stays : ∀ ops, (∀ op ∈ ops, op.LeavesHalves i) →
    (after.run backend ops).HoldsScalar i v ∧ (after.run backend ops).point? i = some Q
  /-- and while they are there the key survives export and import. -/
  roundTrips : ∀ ops, (after.run backend ops).HoldsScalar i v →
    (after.run backend ops).point? i = some Q → RoundTrips backend (after.run backend ops) i

/-- Deriving the point of a key with a scalar in range repairs it. -/
theorem repaired_regenerate (𝔾 : PointGroup backend E) (hr : Reachable backend ring)
    {m : Material P} (hm : ring.material? i = some m) (hs : m.scalar = some v)
    (hd : 1 ≤ v ∧ v < groupOrder) (hQ : backend.ofScalar v = .ok Q)
    (helem : 𝔾.element Q = v • 𝔾.generator) :
    Repaired 𝔾 ring i v Q (ring.perform backend (.regenerate i)).2 := by
  set after := (ring.perform backend (.regenerate i)).2
  have hr' : Reachable backend after := hr.perform (.regenerate i)
  have huse : Uses ring i (ring.perform backend (.regenerate i)) (m.use backend .regenerate) :=
    uses_perform backend hr.owned hm .regenerate
  have hafter : (m.use backend .regenerate).2 = { m with point := some Q } := by
    rw [Material.use, Material.regenerate_of_range hs hd hQ]
    rfl
  have hm' : after.material? i = some { m with point := some Q } := by
    rw [huse.material, if_pos rfl, hafter]
  have hwhole : Material.Whole backend v Q { m with point := some Q } := ⟨hs, rfl, hQ, hd⟩
  have hiswhole : IsWhole backend after i v Q := ⟨_, hm', hwhole⟩
  constructor
  · exact hiswhole.holdsScalar
  · rw [form_eq, form_eq, hm', hm]
    rfl
  · exact ⟨hiswhole.point?, hd, helem⟩
  · have huse' : Uses after i (after.perform backend (.publicPoint i)) _ :=
      uses_perform backend hr'.owned hm' .publicPoint
    rw [huse'.answer]
    rfl
  · intro j hj
    rw [huse.material, if_neg hj]
  · have huse' : Uses after i (after.perform backend (.regenerate i)) _ :=
      uses_perform backend hr'.owned hm' .regenerate
    rw [Material.use, hwhole.regenerate] at huse'
    have howned := (hr'.perform (.regenerate i)).owned
    -- All keys have the material that they had, and nothing else is observed of them.
    refine ⟨_, Prod.ext huse'.answer rfl, transcript_eq_of_material? howned hr'.owned fun j => ?_⟩
    rw [huse'.material]
    split
    · next hj =>
      rw [hj, hm']
      rfl
    · rfl
  · intro ops hleaves
    have hlater := hiswhole.run hr'.owned hleaves
    exact ⟨hlater.holdsScalar, hlater.point?⟩
  · intro ops hv hp
    exact roundTrips_of_matches 𝔾 (hr'.run ops) hv hp ⟨hd, helem⟩

/-! ## Every user of the scalar -/

/-- What the scalar `v` of key `i` is good for. -/
structure UsersAgree (𝔾 : PointGroup backend E) (ring : Keyring P) (i v : Nat)
    (digest : Bytes) : Prop where
  sign : SucceedsIff (ring.perform backend (.sign i (.bytes digest))).1
    (1 ≤ v ∧ v < groupOrder) .signing
  regenerate : SucceedsIff (ring.perform backend (.regenerate i)).1
    (1 ≤ v ∧ v < groupOrder) .precondition
  getPrivate : SucceedsIff (ring.perform backend (.getPrivate i)).1 (v < 2 ^ 256) .encoding
  /-- What is handed out is the scalar in 32 bytes, whatever it is held in. -/
  private_eq : v < 2 ^ 256 →
    (ring.perform backend (.getPrivate i)).1 = .ok (.bytes? (some (Bytes.ofNat 32 v)))
  toDer : ∀ Q, ring.point? i = some Q →
    SucceedsIff (ring.perform backend (.toDer i)).1 (v < 2 ^ 256) .encoding
      ∧ (v < 2 ^ 256 → ∃ der, (ring.perform backend (.toDer i)).1 = .ok (.bytes? (some der)))
  repaired : ∀ answer after, ring.perform backend (.regenerate i) = (.ok answer, after) →
    ∃ Q, Repaired 𝔾 ring i v Q after

theorem succeedsIff_toDer (𝔾 : PointGroup backend E) (hr : Reachable backend ring)
    (hv : ring.HoldsScalar i v) (hp : ring.point? i = some Q) :
    SucceedsIff (ring.perform backend (.toDer i)).1 (v < 2 ^ 256) .encoding
      ∧ (v < 2 ^ 256 →
          ∃ der, (ring.perform backend (.toDer i)).1 = .ok (.bytes? (some der))) := by
  rcases toDer_cases 𝔾 hr hv hp with ⟨hge, herr⟩ | ⟨hlt, der, hder, -⟩
  · have hno := Nat.not_lt.mpr hge
    rw [herr]
    exact ⟨.of_error rfl rfl hno, fun hlt => absurd hlt hno⟩
  · rw [hder]
    exact ⟨.of_ok rfl hlt, fun _ => ⟨der, rfl⟩⟩

/-- All users of a scalar agree on its range, and deriving the point repairs any key. -/
theorem usersAgree_of_reachable (𝔾 : PointGroup backend E)
    (hadmits : ∀ {d : Nat}, backend.admits d = true ↔ 1 ≤ d ∧ d < groupOrder)
    (hr : Reachable backend ring) (hv : ring.HoldsScalar i v) (hlen : digest.length = digestSize)
    (hsign : ring.Signable backend i (.bytes digest)) : UsersAgree 𝔾 ring i v digest := by
  obtain ⟨m, hm, hs⟩ := exists_material?_of_holdsScalar hv
  have hanswer : ∀ use : KeyUse, (ring.perform backend (use.on i)).1 = (m.use backend use).1 :=
    fun use => (uses_perform backend hr.owned hm use).answer
  have hget : (ring.perform backend (.getPrivate i)).1 = m.getPrivate.map .bytes? :=
    hanswer .getPrivate
  have hregenerate : (ring.perform backend (.regenerate i)).1
      = (m.changing (m.regenerate backend)).1 := hanswer .regenerate
  have hrange : SucceedsIff (ring.perform backend (.regenerate i)).1 (1 ≤ v ∧ v < groupOrder)
      .precondition := by
    rw [hregenerate]
    by_cases hd : 1 ≤ v ∧ v < groupOrder
    · obtain ⟨Q, hQ, -⟩ := 𝔾.ofScalar hd
      rw [Material.regenerate_of_range hs hd hQ]
      exact .of_ok rfl hd
    · rw [Material.regenerate_of_not_range hs hd]
      exact .of_error rfl rfl hd
  constructor
  · have hsigns : (ring.perform backend (.sign i (.bytes digest))).1
        = (m.sign backend (.bytes digest)).map .bytes := hanswer (.sign (.bytes digest))
    rw [hsigns]
    exact Material.succeedsIff_sign hadmits hs hlen (hsign.material hm)
  · exact hrange
  · rw [hget]
    exact (Material.succeedsIff_getPrivate hs).1
  · rw [hget]
    exact (Material.succeedsIff_getPrivate hs).2
  · intro Q hp
    exact succeedsIff_toDer 𝔾 hr hv hp
  · intro answer after hperform
    have hd := hrange.ok_iff.mp ⟨answer, congrArg Prod.fst hperform⟩
    obtain ⟨Q, hQ, helem⟩ := 𝔾.ofScalar hd
    have hrepaired := repaired_regenerate 𝔾 hr hm hs hd hQ helem
    rw [hperform] at hrepaired
    exact ⟨Q, hrepaired⟩

/-- The scalar two with zeros in front, next to the generator, which does not belong to it. -/
def staleOps : List KeyOp :=
  [.new, .setPrivate 0 (.bytes [0, 0, 2]), .setPublic 0 (.bytes (Point.generator.format true))]

theorem usersAgree_of_reachable_stale :
    let ring := run Backend.secp256k1 .empty staleOps
    let digest := Bytes.ofNat digestSize 1
    Reachable Backend.secp256k1 ring ∧ ring.HoldsScalar 0 2 ∧ digest.length = digestSize
      ∧ ring.Signable Backend.secp256k1 0 (.bytes digest)
      ∧ ring.point? 0 = some .generator
      ∧ UsersAgree pointGroup ring 0 2 digest := by
  intro ring digest
  have hr : Reachable Backend.secp256k1 ring := Reachable.empty.run staleOps
  have hv : ring.HoldsScalar 0 2 := ⟨0, [0, 0, 2], by decide +kernel, by decide +kernel, rfl⟩
  have hlen : digest.length = digestSize := Bytes.ofNat_length _ _
  have hsome : (Ecdsa.sign? 2 (Ecdsa.messageScalar digest)).isSome = true := by decide +kernel
  have hsign := signable_secp256k1 hv hlen hsome
  exact ⟨hr, hv, hlen, hsign, by decide +kernel,
    usersAgree_of_reachable pointGroup dependable_secp256k1.admits_iff hr hv hlen hsign⟩

end Keyring

end SecpKey
