/-
  SecpKey.Proofs.Keyring.Secrecy

  Two runs cannot be told apart by what they report of their keys.  A key looks like the class
  of its scalar, its public point and its export form (`Appearance`); what a key that looks
  like another one answers is the same, or both answer, or both fail with the same failure
  (`SameAnswer`).  Keys that look alike go on doing so unless a point is derived from their
  scalars (`Alike.after`).  `Discreet` says so of every operation on a key, and of the import
  of files that differ in the scalar; `discreet_of_dependable` is it for every backend that
  takes the scalars in range.
-/
import SecpKey.Proofs.Key.Secrecy
import SecpKey.Proofs.Keyring.Interchange

namespace SecpKey

variable {P : Type} {backend : Backend P}

/-! ## Operations on similar keys -/

/-- The operation asks for nothing that the scalar is part of. -/
def KeyUse.isPublic : KeyUse → Bool
  | .getPublic | .publicPoint | .verify .. | .describe => true
  | _ => false

/-- Answers of two keys to the same operation: both succeed, or both fail with the same failure,
and what the scalar is no part of is the same. -/
structure SameAnswer (use : KeyUse) (x y : Except Failure KeyAnswer) : Prop where
  outcome : SameOutcome x y
  eq_of_isPublic : use.isPublic = true → x = y

theorem SameAnswer.of_secret {use : KeyUse} {x y : Except Failure KeyAnswer}
    (hsecret : use.isPublic = false) (h : SameOutcome x y) : SameAnswer use x y where
  outcome := h
  eq_of_isPublic hpublic := by
    rw [hsecret] at hpublic
    cases hpublic

theorem SameAnswer.of_eq {use : KeyUse} {x y : Except Failure KeyAnswer} (h : x = y) :
    SameAnswer use x y where
  outcome := .of_eq (fun _ => trivial) h
  eq_of_isPublic _ := h

namespace Material

variable {m m' : Material P}

theorem agree_changing {R : Material P → Material P → Prop} {x x' : Except Failure (Material P)}
    (h : Agree R x x') : SameOutcome (m.changing x).1 (m'.changing x').1 := by
  cases h with
  | error e => exact .error e
  | ok _ => exact .ok trivial

/-- Similar keys have the same answers to every operation. -/
theorem Similar.sameAnswer (hb : Dependable backend) (h : Similar m m') (use : KeyUse)
    (hsign : ∀ digest, use = .sign digest →
      m.Signable backend digest ∧ m'.Signable backend digest) :
    SameAnswer use (m.use backend use).1 (m'.use backend use).1 := by
  have hread : SameOutcome (m.getPrivate.map KeyAnswer.bytes?)
      (m'.getPrivate.map KeyAnswer.bytes?) := h.agree_getPrivate.map fun _ _ _ => trivial
  cases use with
  | getPrivate => exact .of_secret rfl hread
  | useOnce => exact .of_secret rfl hread
  | toDer => exact .of_secret rfl (h.agree_toDer.map fun _ _ _ => trivial)
  | regenerate => exact .of_secret rfl (agree_changing (h.agree_regenerate hb))
  | sign digest =>
      obtain ⟨hm, hm'⟩ := hsign digest rfl
      exact .of_secret rfl ((h.agree_sign hb hm hm').map fun _ _ _ => trivial)
  | setPrivate data => exact .of_secret rfl (agree_changing (h.agree_setPrivate data))
  | setPublic data => exact .of_secret rfl (agree_changing (h.agree_setPublic data))
  | setCompressed value => exact .of_secret rfl (agree_changing (h.agree_setCompressed value))
  | close => exact .of_secret rfl (.ok trivial)
  | getPublic =>
      apply SameAnswer.of_eq
      rw [Material.use, Material.use, h.getPublic_eq]
  | publicPoint =>
      apply SameAnswer.of_eq
      rw [Material.use, Material.use, h.publicPoint_eq]
  | verify digest signature =>
      apply SameAnswer.of_eq
      rw [Material.use, Material.use, h.verify_eq]
  | describe =>
      apply SameAnswer.of_eq
      rw [Material.use, Material.use, h.describe_eq]

theorem Similar.changing {x x' : Except Failure (Material P)} (h : Similar m m')
    (hx : Agree Similar x x') : Similar (m.changing x).2 (m'.changing x').2 := by
  cases hx with
  | error e => exact h
  | ok hx => exact hx

/-- Unless a point is derived from their scalars, keys stay similar. -/
theorem Similar.use (h : Similar m m') {use : KeyUse} (hderived : use ≠ .regenerate) :
    Similar (m.use backend use).2 (m'.use backend use).2 := by
  have hclosed : Similar m.close m'.close := ⟨rfl, rfl, h.compressed⟩
  cases use with
  | regenerate => exact absurd rfl hderived
  | setPrivate data => exact h.changing (h.agree_setPrivate data)
  | setPublic data => exact h.changing (h.agree_setPublic data)
  | setCompressed value => exact h.changing (h.agree_setCompressed value)
  | close => exact hclosed
  | useOnce => exact hclosed
  | getPrivate => exact h
  | getPublic => exact h
  | publicPoint => exact h
  | toDer => exact h
  | sign digest => exact h
  | verify digest signature => exact h
  | describe => exact h

end Material

namespace Keyring

variable {ring ring' : Keyring P} {i j : Nat} {m m' : Material P}

/-! ## Keys that look alike -/

/-- What a key looks like to those who are not to know its scalar. -/
structure Appearance where
  scalar : Option ScalarClass
  publicPoint : Option (Nat × Nat)
  compressed : Bool
  deriving DecidableEq, Repr

def appearance? (backend : Backend P) (ring : Keyring P) (i : Nat) : Option Appearance :=
  (ring.material? i).map fun m => ⟨m.scalar.map .of, m.publicPoint backend, m.compressed⟩

/-- Key `i` of one run and key `j` of another, or of the same, look the same. -/
structure Alike (backend : Backend P) (ring : Keyring P) (i : Nat) (ring' : Keyring P) (j : Nat) :
    Prop where
  left : Reachable backend ring
  right : Reachable backend ring'
  appearance : ∃ a, ring.appearance? backend i = some a ∧ ring'.appearance? backend j = some a

/-- Keys that look alike differ in nothing but the scalar. -/
theorem Alike.exists_similar (hb : Dependable backend) (h : Alike backend ring i ring' j) :
    ∃ m m', ring.material? i = some m ∧ ring'.material? j = some m' ∧ m.Similar m' := by
  obtain ⟨a, hi, hj⟩ := h.appearance
  obtain ⟨m, hm, rfl⟩ := Option.map_eq_some_iff.mp hi
  obtain ⟨m', hm', hsame⟩ := Option.map_eq_some_iff.mp hj
  obtain ⟨hscalar, hpoint, hcompressed⟩ := (Appearance.mk.injEq ..).mp hsame
  have hpoints := Material.point_eq hb.coordinates (given_of_material? h.left hm)
    (given_of_material? h.right hm') hpoint.symm
  exact ⟨m, m', hm, hm', hscalar.symm, hpoints, hcompressed.symm⟩

theorem Alike.of_similar (hr : Reachable backend ring) (hr' : Reachable backend ring')
    (hm : ring.material? i = some m) (hm' : ring'.material? j = some m') (h : m.Similar m') :
    Alike backend ring i ring' j := by
  refine ⟨hr, hr', ⟨m.scalar.map .of, m.publicPoint backend, m.compressed⟩, ?_, ?_⟩
  · rw [appearance?, hm, Option.map_some]
  · rw [appearance?, hm', Option.map_some, h.scalar, h.publicPoint_eq, h.compressed]

theorem Alike.perform (hb : Dependable backend) (h : Alike backend ring i ring' j) {use : KeyUse}
    (hderived : use ≠ .regenerate) :
    Alike backend (ring.perform backend (use.on i)).2 i
      (ring'.perform backend (use.on j)).2 j := by
  obtain ⟨m, m', hm, hm', hsimilar⟩ := h.exists_similar hb
  have huse := (uses_perform backend h.left.owned hm use).material i
  have huse' := (uses_perform backend h.right.owned hm' use).material j
  rw [if_pos rfl] at huse huse'
  exact .of_similar (h.left.perform _) (h.right.perform _) huse huse' (hsimilar.use hderived)

/-- The keyring after operations on key `i`. -/
def after (backend : Backend P) (ring : Keyring P) (i : Nat) (uses : List KeyUse) : Keyring P :=
  uses.foldl (fun ring use => (ring.perform backend (use.on i)).2) ring

/-- Unless a point is derived from their scalars, keys go on looking alike. -/
theorem Alike.after (hb : Dependable backend) (h : Alike backend ring i ring' j)
    {uses : List KeyUse} (hderived : KeyUse.regenerate ∉ uses) :
    Alike backend (ring.after backend i uses) i (ring'.after backend j uses) j := by
  -- On the operations, for all pairs of keyrings: a step leaves another pair that looks alike.
  induction uses generalizing ring ring' with
  | nil => exact h
  | cons use rest ih =>
      rw [List.mem_cons, not_or] at hderived
      exact ih (h.perform hb (Ne.symm hderived.1)) hderived.2

/-- The backend signs what key `i` is asked to sign, if its scalar is in range. -/
def Signable (backend : Backend P) (ring : Keyring P) (i : Nat) (digest : Argument) : Prop :=
  ∀ message d, ensureDigest digest = .ok message → ring.HoldsScalar i d →
    1 ≤ d ∧ d < groupOrder → ∃ signature, backend.sign d message = .ok signature

theorem holdsScalar_of_material? {d : Nat} (hm : ring.material? i = some m)
    (hd : m.scalar = some d) : ring.HoldsScalar i d := by
  obtain ⟨k, hk, rfl⟩ := exists_key_of_material? hm
  obtain ⟨h, hs, hcell⟩ := Option.bind_eq_some_iff.mp hd
  refine ⟨h, ?_⟩
  cases hv : ring.vault.get h with
  | wiped =>
      rw [hv] at hcell
      cases hcell
  | live buffer =>
      rw [hv] at hcell
      exact ⟨buffer, (secretAt_eq hk).trans hs, rfl, Option.some.inj hcell⟩

theorem Signable.material {digest : Argument} (h : ring.Signable backend i digest)
    (hm : ring.material? i = some m) : m.Signable backend digest :=
  fun message d hdigest hd => h message d hdigest (holdsScalar_of_material? hm hd)

/-! ## Every keyring -/

/-- What the backend's users can rely on not to be told. -/
structure Discreet (backend : Backend P) : Prop where
  /-- Keys that look alike have the same answers to every operation. -/
  answers : ∀ {ring ring' : Keyring P} {i j : Nat}, Alike backend ring i ring' j →
    ∀ use : KeyUse,
      (∀ digest, use = .sign digest →
        ring.Signable backend i digest ∧ ring'.Signable backend j digest) →
      SameAnswer use (ring.perform backend (use.on i)).1 (ring'.perform backend (use.on j)).1
  /-- They go on looking alike unless a point is derived from their scalars. -/
  appearance : ∀ {ring ring' : Keyring P} {i j : Nat}, Alike backend ring i ring' j →
    ∀ uses : List KeyUse, .regenerate ∉ uses →
      Alike backend (ring.after backend i uses) i (ring'.after backend j uses) j
  /-- Files that differ in the bytes of their scalars, both in range or both out of it, are
  refused with the same failure if neither is imported. -/
  imports : ∀ {ring ring' : Keyring P} {front back secret secret' : Bytes} {size : Nat},
    EcPrivateKey.Around back size front → secret.length = size → secret'.length = size →
      ((1 ≤ Bytes.toNat secret ∧ Bytes.toNat secret < groupOrder)
        ↔ 1 ≤ Bytes.toNat secret' ∧ Bytes.toNat secret' < groupOrder) →
      ∀ e e',
        (ring.perform backend (.ofDer (.bytes (front ++ (secret ++ back))))).1 = .error e →
        (ring'.perform backend (.ofDer (.bytes (front ++ (secret' ++ back))))).1 = .error e' →
          e = e'
  /-- Every file in which a scalar is found has its bytes in such a place. -/
  found : ∀ {data secret : Bytes} {publicKey : Option Bytes},
    EcPrivateKey.readParts backend .secp256k1 data = .ok (secret, publicKey) →
      ∃ front back, data = front ++ (secret ++ back)
        ∧ EcPrivateKey.Around back secret.length front

theorem ofDer_eq_error {a : Argument} {e : Failure}
    (h : (ring.perform backend (.ofDer a)).1 = .error e) :
    (Key.ofDer backend a ring.vault).1 = .error e := by
  rw [perform] at h
  rcases hmade : Key.ofDer backend a ring.vault with ⟨cause | k, v⟩
  · rw [hmade] at h
    cases h
    rfl
  · rw [hmade] at h
    cases h

/-- Errors and representations do not tell the scalar. -/
theorem discreet_of_dependable (hb : Dependable backend) : Discreet backend where
  answers {ring ring' i j} h use hsign := by
    obtain ⟨m, m', hm, hm', hsimilar⟩ := h.exists_similar hb
    rw [(uses_perform backend h.left.owned hm use).answer,
      (uses_perform backend h.right.owned hm' use).answer]
    refine hsimilar.sameAnswer hb use fun digest huse => ?_
    obtain ⟨hi, hj⟩ := hsign digest huse
    exact ⟨hi.material hm, hj.material hm'⟩
  appearance h _ hderived := h.after hb hderived
  imports h hs hs' hrange e e' he he' :=
    Key.ofDer_error_eq hb h hs hs' hrange (ofDer_eq_error he) (ofDer_eq_error he')
  found h := EcPrivateKey.exists_around_of_readParts h

theorem signable_secp256k1 {ring : Keyring Point} {d : Nat} {digest : Bytes}
    (hd : ring.HoldsScalar i d) (hlen : digest.length = digestSize)
    (hsome : (Ecdsa.sign? d (Ecdsa.messageScalar digest)).isSome = true) :
    ring.Signable Backend.secp256k1 i (.bytes digest) := by
  rintro message d' hdigest hd' -
  have hwhole : ensureDigest (.bytes digest) = .ok digest := if_pos hlen
  obtain rfl := Except.ok.inj (hwhole.symm.trans hdigest)
  obtain rfl := hd.eq hd'
  obtain ⟨⟨r, s⟩, hrs⟩ := Option.isSome_iff_exists.mp hsome
  refine ⟨Signature.encode r s, ?_⟩
  show Backend.signatureOrRefusal _ = _
  rw [hrs]
  rfl

/-- Two keys with the scalars two and three, which were given the generator as their point. -/
def pairOps : List KeyOp :=
  [.new, .setPrivate 0 (.bytes [2]), .setPublic 0 (.bytes (Point.generator.format true)),
   .new, .setPrivate 1 (.bytes [0, 3]), .setPublic 1 (.bytes (Point.generator.format true))]

/-- A private key with an element behind it that does not belong there, up to the scalar. -/
def strayFront : Bytes := [0x30, 0x08, 0x02, 0x01, 0x01, 0x04, 0x01]

theorem around_stray : EcPrivateKey.Around [0x05, 0x00] 1 strayFront := by
  have hone : Der.LengthOctets [0x01] 1 := .short (b := 0x01) (by decide)
  have height : Der.LengthOctets [0x08] 8 := .short (b := 0x08) (by decide)
  exact @EcPrivateKey.Around.mk _ _ [0x30, 0x08] [0x02, 0x01] [0x01] [0x04, 0x01] 8 1
    (.mk 0x30 height) (.mk 0x02 hone) (.mk 0x04 hone) (.inl rfl)

theorem discreet_of_dependable_pair :
    let ring := run Backend.secp256k1 .empty pairOps
    let digest := Argument.bytes (Bytes.ofNat digestSize 1)
    Dependable Backend.secp256k1 ∧ Alike Backend.secp256k1 ring 0 ring 1
      ∧ ring.HoldsScalar 0 2 ∧ ring.HoldsScalar 1 3
      ∧ ring.Signable Backend.secp256k1 0 digest ∧ ring.Signable Backend.secp256k1 1 digest
      ∧ EcPrivateKey.Around [0x05, 0x00] 1 strayFront
      ∧ Discreet Backend.secp256k1 := by
  intro ring digest
  have hr : Reachable Backend.secp256k1 ring := Reachable.empty.run pairOps
  have htwo : ring.HoldsScalar 0 2 := ⟨0, [2], by decide +kernel, by decide +kernel, rfl⟩
  have hthree : ring.HoldsScalar 1 3 := ⟨1, [0, 3], by decide +kernel, by decide +kernel, rfl⟩
  have hsign : (Ecdsa.sign? 2 (Ecdsa.messageScalar (Bytes.ofNat digestSize 1))).isSome = true
      ∧ (Ecdsa.sign? 3 (Ecdsa.messageScalar (Bytes.ofNat digestSize 1))).isSome = true := by
    decide +kernel
  have hlen : (Bytes.ofNat digestSize 1).length = digestSize := Bytes.ofNat_length _ _
  refine ⟨dependable_secp256k1, ⟨hr, hr, ⟨some .inRange, some (generatorX, generatorY), true⟩,
    by decide +kernel, by decide +kernel⟩, htwo, hthree, signable_secp256k1 htwo hlen hsign.1,
    signable_secp256k1 hthree hlen hsign.2, around_stray,
    discreet_of_dependable dependable_secp256k1⟩

end Keyring

end SecpKey
