/-
  SecpKey.Proofs.Keyring.Interchange

  Equal keys cannot be told apart.  Keys of a keyring are equal if they hold the same scalar
  and points with the same coordinates (`areEqual_iff`), so with the same export form they
  have the same material, and whatever is done to both of them has the same outcome.
  `Interchangeable` lists what is said, and `interchangeable_of_reachable` is it for every
  keyring that operations lead to.
-/
import SecpKey.Proofs.Keyring.ExportImport
import SecpKey.Proofs.Keyring.Material

namespace SecpKey

variable {P : Type} {backend : Backend P}

/-! ## Equality of keys -/

/-- Live keys are equal if they hold the same scalar and show the same point. -/
theorem Key.equals_iff (backend : Backend P) {k l : Key P} {v : Vault} (hk : k.Live v)
    (hl : l.Live v) :
    k.equals backend v l = true
      ↔ (k.material v).scalar = (l.material v).scalar
        ∧ k.publicPoint backend = l.publicPoint backend := by
  have hpublic : k.publicPoint backend = l.publicPoint backend → k.hasPublic = l.hasPublic := by
    intro h
    have hsome := congrArg Option.isSome h
    rwa [publicPoint, publicPoint, Option.isSome_map, Option.isSome_map] at hsome
  -- Presence is looked at for both, but agreement only from the first one's side.
  have hsecrets : (k.hasPrivate = l.hasPrivate ∧ secretsAgree v k.secret l.secret = true)
      ↔ (k.material v).scalar = (l.material v).scalar := by
    rcases material_cases hk with ⟨hs, hm⟩ | ⟨h, buffer, hs, hv, hm⟩
    · rcases material_cases hl with ⟨hs', hm'⟩ | ⟨h', buffer', hs', hv', hm'⟩
      · simp [hasPrivate, hs, hs', hm, hm', secretsAgree]
      · simp [hasPrivate, hs, hs', hm, hm']
    · rcases material_cases hl with ⟨hs', hm'⟩ | ⟨h', buffer', hs', hv', hm'⟩
      · simp [hasPrivate, hs, hs', hm, hm']
      · simp [hasPrivate, hs, hs', hm, hm', secretsAgree, hv, hv', SecretScalar.equals]
  rw [equals, ← hsecrets]
  simp only [Bool.and_eq_true, beq_iff_eq]
  constructor
  · rintro ⟨⟨⟨hprivate, -⟩, hagree⟩, hpoint⟩
    exact ⟨⟨hprivate, hagree⟩, hpoint⟩
  · rintro ⟨⟨hprivate, hagree⟩, hpoint⟩
    exact ⟨⟨⟨hprivate, hpublic hpoint⟩, hagree⟩, hpoint⟩

/-- Materials with the same public point have the same point, where points are told by their
coordinates. -/
theorem Material.point_eq {m m' : Material P}
    (hcoordinates : ∀ {Q R : P}, Given backend Q → Given backend R →
      backend.coordinates Q = backend.coordinates R → Q = R)
    (hgiven : ∀ {Q : P}, m.point = some Q → Given backend Q)
    (hgiven' : ∀ {Q : P}, m'.point = some Q → Given backend Q)
    (h : m.publicPoint backend = m'.publicPoint backend) : m.point = m'.point := by
  rw [publicPoint, publicPoint] at h
  cases hQ : m.point with
  | none =>
      rw [hQ, Option.map_none, eq_comm, Option.map_eq_none_iff] at h
      exact h.symm
  | some Q =>
      rw [hQ, Option.map_some, eq_comm, Option.map_eq_some_iff] at h
      obtain ⟨R, hR, hsame⟩ := h
      rw [hR, hcoordinates (hgiven' hR) (hgiven hQ) hsame]

namespace Keyring

variable {ring : Keyring P} {i j : Nat} {m m' : Material P}

/-- Keys `i` and `j` are equal. -/
def AreEqual (backend : Backend P) (ring : Keyring P) (i j : Nat) : Prop :=
  (ring.perform backend (.equals i j)).1 = .ok (.truth true)

/-- The export form of key `i`. -/
def form (ring : Keyring P) (i : Nat) : Option Bool := (ring.keys[i]?).map (·.compressed)

theorem form_eq (ring : Keyring P) (i : Nat) :
    ring.form i = (ring.material? i).map (·.compressed) := by
  rw [form, material?, Option.map_map]
  rfl

theorem areEqual_iff (ho : Owned ring) : AreEqual backend ring i j
    ↔ ∃ m m', ring.material? i = some m ∧ ring.material? j = some m' ∧ m.scalar = m'.scalar
        ∧ m.publicPoint backend = m'.publicPoint backend := by
  rw [AreEqual, perform, withKey, material?, material?]
  cases hk : ring.keys[i]? with
  | none => simp
  | some k =>
      dsimp only
      rw [withKey]
      cases hl : ring.keys[j]? with
      | none => simp
      | some l =>
          have hequals := Key.equals_iff backend (ho.key_live hk) (ho.key_live hl)
          show Except.ok (KeyAnswer.truth (k.equals backend ring.vault l)) = _ ↔ _
          rw [Except.ok.injEq, KeyAnswer.truth.injEq, hequals]
          constructor
          · rintro ⟨hscalar, hpoint⟩
            exact ⟨_, _, rfl, rfl, hscalar, hpoint⟩
          · rintro ⟨_, _, ⟨⟩, ⟨⟩, hscalar, hpoint⟩
            exact ⟨hscalar, hpoint⟩

/-- Keys with the same material are equal. -/
theorem areEqual_of_material? (ho : Owned ring) (hi : ring.material? i = some m)
    (hj : ring.material? j = some m) : AreEqual backend ring i j :=
  (areEqual_iff ho).mpr ⟨m, m, hi, hj, rfl, rfl⟩

theorem given_of_material? (hr : Reachable backend ring) (hm : ring.material? i = some m) {Q : P}
    (hQ : m.point = some Q) : Given backend Q := by
  obtain ⟨k, hk, rfl⟩ := exists_key_of_material? hm
  exact hr.sourced k (List.mem_of_getElem? hk) Q hQ

/-- Equal keys with the same export form have the same material. -/
theorem exists_material?_of_areEqual (hapart : ToldApart backend) (hr : Reachable backend ring)
    (hequal : AreEqual backend ring i j) (hform : ring.form i = ring.form j) :
    ∃ m, ring.material? i = some m ∧ ring.material? j = some m := by
  obtain ⟨m, m', hi, hj, hscalar, hpoint⟩ := (areEqual_iff hr.owned).mp hequal
  have hcompressed : m.compressed = m'.compressed := by
    rw [form_eq, form_eq, hi, hj] at hform
    exact Option.some.inj hform
  have hpoints : m.point = m'.point := Material.point_eq hapart.coordinates
    (given_of_material? hr hi) (given_of_material? hr hj) hpoint
  refine ⟨m, hi, ?_⟩
  cases m
  cases m'
  simp_all only

/-! ## The same operations on both -/

/-- What a key answers to operations one after the other. -/
def answers (backend : Backend P) (ring : Keyring P) (i : Nat) :
    List KeyUse → List (Except Failure KeyAnswer)
  | [] => []
  | use :: rest =>
    let (answer, after) := ring.perform backend (use.on i)
    answer :: after.answers backend i rest

/-- The keyring after each operation was carried out on key `i` and then on key `j`. -/
def both (backend : Backend P) (ring : Keyring P) (i j : Nat) (uses : List KeyUse) : Keyring P :=
  uses.foldl (fun ring use =>
    ((ring.perform backend (use.on i)).2.perform backend (use.on j)).2) ring

/-- What a key answers is said by its material, whatever keyring it is in. -/
theorem answers_eq_of_material? {other : Keyring P} (ho : Owned ring) (ho' : Owned other)
    (hi : ring.material? i = some m) (hj : other.material? j = some m) (uses : List KeyUse) :
    ring.answers backend i uses = other.answers backend j uses := by
  -- On the operations, for all keyrings and materials: each one leaves the two keys alike.
  induction uses generalizing ring other m with
  | nil => rfl
  | cons use rest ih =>
      have huse := uses_perform backend ho hi use
      have huse' := uses_perform backend ho' hj use
      have hi' := (huse.material i).trans (if_pos rfl)
      have hj' := (huse'.material j).trans (if_pos rfl)
      rw [answers, answers]
      dsimp only
      rw [huse.answer, huse'.answer, ih (ho.perform _) (ho'.perform _) hi' hj']

/-- An operation on both of two keys. -/
theorem perform_both (backend : Backend P) (ho : Owned ring) (hne : i ≠ j)
    (hi : ring.material? i = some m) (hj : ring.material? j = some m) (use : KeyUse) :
    let first := ring.perform backend (use.on i)
    let second := first.2.perform backend (use.on j)
    first.1 = second.1 ∧ ∃ after, second.2.material? i = some after
      ∧ second.2.material? j = some after := by
  intro first second
  have huse : Uses ring i first _ := uses_perform backend ho hi use
  have hj' : first.2.material? j = some m := by rw [huse.material, if_neg (Ne.symm hne), hj]
  have huse' : Uses first.2 j second _ := uses_perform backend (ho.perform _) hj' use
  refine ⟨huse.answer.trans huse'.answer.symm, (m.use backend use).2, ?_, ?_⟩
  · rw [huse'.material, if_neg hne, huse.material, if_pos rfl]
  · rw [huse'.material, if_pos rfl]

theorem both_owned (ho : Owned ring) (uses : List KeyUse) : Owned (ring.both backend i j uses) := by
  induction uses generalizing ring with
  | nil => exact ho
  | cons use rest ih => exact ih ((ho.perform _).perform _)

theorem exists_material?_both (backend : Backend P) (ho : Owned ring) (hne : i ≠ j)
    (hi : ring.material? i = some m) (hj : ring.material? j = some m) (uses : List KeyUse) :
    ∃ after, (ring.both backend i j uses).material? i = some after
      ∧ (ring.both backend i j uses).material? j = some after := by
  induction uses generalizing ring m with
  | nil => exact ⟨m, hi, hj⟩
  | cons use rest ih =>
      obtain ⟨-, after, hi', hj'⟩ := perform_both backend ho hne hi hj use
      exact ih ((ho.perform _).perform _) hi' hj'

/-! ## Exports -/

/-- The export of a key with both halves tells its scalar, its point and its form. -/
theorem toDer_inj (hapart : ToldApart backend) {d d' : Nat} {Q R : P} (hQ : Given backend Q)
    (hR : Given backend R) (hd : d < 256 ^ scalarSize) (hd' : d' < 256 ^ scalarSize)
    (hm : m.scalar = some d) (hm' : m'.scalar = some d') (hpoint : m.point = some Q)
    (hpoint' : m'.point = some R) (h : m.toDer backend = m'.toDer backend) : m = m' := by
  have hexport : ∀ {n : Material P} {e : Nat} {S : P}, Given backend S → e < 256 ^ scalarSize →
      n.scalar = some e → n.point = some S → ∃ der, n.toDer backend = .ok (some der)
        ∧ EcPrivateKey.readParts backend .secp256k1 der
          = .ok (Bytes.ofNat scalarSize e, some (backend.format S n.compressed)) := by
    intro n e S hS he hscalar hS'
    have hlen := hapart.length_format n.compressed hS
    have hnonempty : backend.format S n.compressed ≠ [] := by
      rw [← List.length_pos_iff, hlen]
      exact formSize_pos n.compressed
    obtain ⟨der, henc, hparts⟩ := EcPrivateKey.readParts_encode backend
      (Bytes.ofNat_length scalarSize e) hnonempty (hlen ▸ formSize_lt n.compressed)
    refine ⟨der, ?_, hparts⟩
    rw [Material.toDer, hscalar, hS']
    dsimp only
    rw [Material.secretBytes, if_pos he]
    show (EcPrivateKey.encode _ _ _ >>= _) = _
    rw [henc]
    rfl
  obtain ⟨der, hder, hparts⟩ := hexport hQ hd hm hpoint
  obtain ⟨der', hder', hparts'⟩ := hexport hR hd' hm' hpoint'
  -- Both are taken apart, and into the same parts.
  rw [hder, hder', Except.ok.injEq, Option.some.injEq] at h
  rw [h, hparts', Except.ok.injEq, Prod.mk.injEq, Option.some.injEq] at hparts
  obtain ⟨hsecret, hformat⟩ := hparts
  -- The scalars have one width, and the forms tell themselves apart by their size.
  have hscalar : d = d' := by
    have hval := congrArg Bytes.toNat hsecret
    rw [Bytes.toNat_ofNat hd, Bytes.toNat_ofNat hd'] at hval
    exact hval.symm
  have hcompressed : m.compressed = m'.compressed := by
    have hlen := congrArg List.length hformat
    rw [hapart.length_format _ hQ, hapart.length_format _ hR] at hlen
    rw [← formSize_beq m.compressed, ← formSize_beq m'.compressed, hlen]
  rw [hcompressed] at hformat
  have hsame := hapart.format _ hR hQ hformat
  cases m
  cases m'
  simp_all only

theorem map_bytes?_inj {a b : Except Failure (Option Bytes)}
    (h : a.map KeyAnswer.bytes? = b.map .bytes?) : a = b := by
  cases a <;> cases b <;> simp_all [Except.map]

theorem exists_material?_of_holdsScalar {d : Nat} (hd : ring.HoldsScalar i d) :
    ∃ m, ring.material? i = some m ∧ m.scalar = some d := by
  obtain ⟨h, buffer, hs, hv, rfl⟩ := hd
  obtain ⟨k, hk, hsecret⟩ := exists_key_of_secretAt hs
  refine ⟨k.material ring.vault, by rw [material?, hk]; rfl, ?_⟩
  rw [Key.material, hsecret, Option.bind_some, hv]
  rfl

theorem exists_material?_of_halves {d : Nat} {Q : P} (hd : ring.HoldsScalar i d)
    (hQ : ring.point? i = some Q) :
    ∃ m, ring.material? i = some m ∧ m.scalar = some d ∧ m.point = some Q := by
  obtain ⟨m, hm, hs⟩ := exists_material?_of_holdsScalar hd
  obtain ⟨k, hk, rfl⟩ := exists_key_of_material? hm
  rw [point?, hk, Option.bind_some] at hQ
  exact ⟨_, hm, hs, hQ⟩

/-! ## Every keyring -/

/-- What is said of equal keys. -/
structure Interchangeable (backend : Backend P) (ring : Keyring P) : Prop where
  equivalence : Equivalence fun i j : Fin ring.keys.length => AreEqual backend ring i j
  /-- Equal keys with one export form answer the same to the same operations, -/
  answers : ∀ i j, AreEqual backend ring i j → ring.form i = ring.form j → ∀ uses,
    ring.answers backend i uses = ring.answers backend j uses
  /-- also when each operation is carried out on both; and they stay equal, with one form. -/
  lockstep : ∀ i j, i ≠ j → AreEqual backend ring i j → ring.form i = ring.form j →
    ∀ (uses : List KeyUse) (use : KeyUse),
      let after := ring.both backend i j uses
      AreEqual backend after i j ∧ after.form i = after.form j
        ∧ (after.perform backend (use.on i)).1
          = ((after.perform backend (use.on i)).2.perform backend (use.on j)).1
  /-- Keys with both halves that are exported to the same bytes are equal, with one form. -/
  exports : ∀ i j d d' Q R, ring.HoldsScalar i d → ring.HoldsScalar j d' →
    ring.point? i = some Q → ring.point? j = some R → d < 2 ^ 256 → d' < 2 ^ 256 →
    (ring.perform backend (.toDer i)).1 = (ring.perform backend (.toDer j)).1 →
      AreEqual backend ring i j ∧ ring.form i = ring.form j

theorem equivalence_areEqual (ho : Owned ring) :
    Equivalence fun i j : Fin ring.keys.length => AreEqual backend ring i j where
  refl i := by
    have hi : ring.material? i = some (ring.keys[i].material ring.vault) := by
      rw [material?, List.getElem?_eq_getElem i.isLt, Option.map_some]
      rfl
    exact areEqual_of_material? ho hi hi
  symm {i j} h := by
    obtain ⟨m, m', hi, hj, hscalar, hpoint⟩ := (areEqual_iff ho).mp h
    exact (areEqual_iff ho).mpr ⟨m', m, hj, hi, hscalar.symm, hpoint.symm⟩
  trans {i j l} h h' := by
    obtain ⟨m, m', hi, hj, hscalar, hpoint⟩ := (areEqual_iff ho).mp h
    obtain ⟨n, n', hj', hl, hscalar', hpoint'⟩ := (areEqual_iff ho).mp h'
    obtain rfl := Option.some.inj (hj.symm.trans hj')
    exact (areEqual_iff ho).mpr ⟨m, n', hi, hl, hscalar.trans hscalar', hpoint.trans hpoint'⟩

/-- In every keyring that operations lead to, equal keys cannot be told apart. -/
theorem interchangeable_of_reachable (hapart : ToldApart backend) (hr : Reachable backend ring) :
    Interchangeable backend ring where
  equivalence := equivalence_areEqual hr.owned
  answers i j hequal hform uses := by
    obtain ⟨m, hi, hj⟩ := exists_material?_of_areEqual hapart hr hequal hform
    exact answers_eq_of_material? hr.owned hr.owned hi hj uses
  lockstep i j hne hequal hform uses use := by
    intro after
    obtain ⟨m, hi, hj⟩ := exists_material?_of_areEqual hapart hr hequal hform
    have hafter : Owned after := both_owned hr.owned uses
    obtain ⟨m', hi', hj'⟩ := exists_material?_both backend hr.owned hne hi hj uses
    refine ⟨areEqual_of_material? hafter hi' hj', ?_, ?_⟩
    · rw [form_eq, form_eq, hi', hj']
    · exact (perform_both backend hafter hne hi' hj' use).1
  exports i j d d' Q R hd hd' hQ hR hlt hlt' h := by
    obtain ⟨m, hi, hscalar, hpoint⟩ := exists_material?_of_halves hd hQ
    obtain ⟨m', hj, hscalar', hpoint'⟩ := exists_material?_of_halves hd' hR
    have hfits : ∀ {e : Nat}, e < 2 ^ 256 → e < 256 ^ scalarSize := fun he => by
      rwa [show 256 ^ scalarSize = 2 ^ 256 by decide]
    have hanswer : (ring.perform backend (.toDer i)).1 = (m.toDer backend).map .bytes? :=
      (uses_perform backend hr.owned hi .toDer).answer
    have hanswer' : (ring.perform backend (.toDer j)).1 = (m'.toDer backend).map .bytes? :=
      (uses_perform backend hr.owned hj .toDer).answer
    rw [hanswer, hanswer'] at h
    obtain rfl := toDer_inj hapart (given_of_material? hr hi hpoint)
      (given_of_material? hr hj hpoint') (hfits hlt) (hfits hlt') hscalar hscalar' hpoint hpoint'
      (map_bytes?_inj h)
    refine ⟨areEqual_of_material? hr.owned hi hj, ?_⟩
    rw [form_eq, form_eq, hi, hj]

/-- Two keys with the scalar one and the generator, with zeros in front of the scalar or not,
and with a point that was derived or loaded. -/
def twinOps : List KeyOp :=
  [.new, .setPrivate 0 (.bytes [0, 0, 1]), .regenerate 0, .new, .setPrivate 1 (.bytes [1]),
   .setPublic 1 (.bytes (Point.generator.format true)), .setCompressed 1 (.other "bool" .empty)]

theorem interchangeable_of_reachable_twins :
    let ring := run Backend.secp256k1 .empty twinOps
    ToldApart Backend.secp256k1 ∧ Reachable Backend.secp256k1 ring
      ∧ AreEqual Backend.secp256k1 ring 0 1 ∧ ring.form 0 = ring.form 1
      ∧ Interchangeable Backend.secp256k1 ring := by
  intro ring
  have hr : Reachable Backend.secp256k1 ring := Reachable.empty.run twinOps
  refine ⟨toldApart_secp256k1, hr, ?_, ?_, interchangeable_of_reachable toldApart_secp256k1 hr⟩
  · show _ = _
    decide +kernel
  · decide +kernel

end Keyring

end SecpKey
