/-
  SecpKey.Proofs.Keyring.ExportImport

  What a key of a keyring is exported to, and what becomes of the export.  Setters can
  leave a key with any scalar next to a point that does not belong to it; all the same it
  holds one scalar (`Reachable.holdsScalar`) and its point was handed out by the backend
  (`Reachable.sourced`).  `Exported` lists what follows, and `exported_of_reachable` is it
  for every key of every keyring that operations lead to.
-/
import SecpKey.Proofs.Key.Export
import SecpKey.Proofs.Keyring.SignThenVerify

namespace SecpKey.Keyring

variable {P E : Type} [AddGroup E] {backend : Backend P} {ring : Keyring P} {i : Nat}

/-! ## Points of keys -/

/-- The points of all keys were handed out by the backend. -/
def Sourced (backend : Backend P) (ring : Keyring P) : Prop :=
  ∀ k ∈ ring.keys, Key.Sourced backend k

namespace Sourced

theorem making {outcome : Outcome (Key P × List Draw)} (hs : Sourced backend ring)
    (h : ∀ {k left}, outcome.1 = .ok (k, left) → Key.Sourced backend k) :
    Sourced backend (ring.making outcome).2 := by
  rcases outcome with ⟨e | ⟨k, left⟩, w⟩
  · exact hs
  · intro l hl
    rcases List.mem_append.mp hl with hold | hnew
    · exact hs l hold
    · obtain rfl := List.mem_singleton.mp hnew
      exact h rfl

theorem changing {key : Nat} {outcome : Outcome (Key P)} (hs : Sourced backend ring)
    (h : ∀ {l}, outcome.1 = .ok l → Key.Sourced backend l) :
    Sourced backend (ring.changing key outcome).2 := by
  rcases outcome with ⟨e | l, w⟩
  · exact hs
  · intro m hm
    rcases List.mem_or_eq_of_mem_set hm with hold | rfl
    · exact hs m hold
    · exact h rfl

theorem withKey {key : Nat} {act : Key P → Except Failure KeyAnswer × Keyring P}
    (hs : Sourced backend ring)
    (h : ∀ k, Key.Sourced backend k → Sourced backend (act k).2) :
    Sourced backend (ring.withKey key act).2 := by
  rw [Keyring.withKey]
  split
  · exact hs
  · next k hk => exact h k (hs k (List.mem_of_getElem? hk))

/-- No operation brings in a point from elsewhere. -/
theorem perform (hs : Sourced backend ring) (op : KeyOp) :
    Sourced backend (ring.perform backend op).2 := by
  cases op with
  | new =>
      apply hs.making
      rintro _ _ ⟨⟩ _ ⟨⟩
  | generate draws => exact hs.making fun h => (Key.outcome_generate draws _).sourced h
  | ofDer data =>
      rw [Keyring.perform]
      rcases hmade : Key.ofDer backend data ring.vault with ⟨e | k, w⟩
      · exact hs
      · apply hs.making
        rintro _ _ ⟨⟩
        exact (Key.outcome_ofDer data _).sourced (congrArg Prod.fst hmade)
  | setPrivate key data =>
      exact hs.withKey fun k hk => hs.changing fun h => Key.sourced_setPrivate hk h
  | setPublic key data => exact hs.withKey fun k _ => hs.changing fun h => Key.sourced_setPublic h
  | regenerate key => exact hs.withKey fun k _ => hs.changing (k.outcome_regenerate _).sourced
  | setCompressed key value =>
      exact hs.withKey fun k hk => hs.changing fun h => Key.sourced_setCompressed hk h
  | close key =>
      apply hs.withKey
      intro k _
      apply hs.changing
      rintro _ ⟨⟩ _ ⟨⟩
  | useOnce key =>
      apply hs.withKey
      intro k _
      apply hs.changing
      rintro _ ⟨⟩ _ ⟨⟩
  | equals key other => exact hs.withKey fun _ _ => hs.withKey fun _ _ => hs
  | sign key digest => exact hs.withKey fun _ _ => hs
  | getPrivate key => exact hs.withKey fun _ _ => hs
  | getPublic key => exact hs.withKey fun _ _ => hs
  | publicPoint key => exact hs.withKey fun _ _ => hs
  | toDer key => exact hs.withKey fun _ _ => hs
  | verify key digest signature => exact hs.withKey fun _ _ => hs
  | describe key => exact hs.withKey fun _ _ => hs

end Sourced

theorem Reachable.sourced (h : Reachable backend ring) : Sourced backend ring := by
  induction h with
  | empty => exact fun _ hk => nomatch hk
  | perform _ op ih => exact ih.perform op

/-! ## Keys that agree -/

/-- Key `j` of `after` answers as key `i` of `ring` does. -/
structure Agrees (backend : Backend P) (ring : Keyring P) (i : Nat) (after : Keyring P) (j : Nat) :
    Prop where
  getPrivate : (after.perform backend (.getPrivate j)).1
    = (ring.perform backend (.getPrivate i)).1
  getPublic : (after.perform backend (.getPublic j)).1 = (ring.perform backend (.getPublic i)).1
  toDer : (after.perform backend (.toDer j)).1 = (ring.perform backend (.toDer i)).1
  compressed : (after.keys[j]?).map (·.compressed) = (ring.keys[i]?).map (·.compressed)

/-- Keys agree if they have the same point in the same form and hand out the same scalar. -/
theorem agrees_of_bytes {after : Keyring P} {j h h' : Nat} {k l : Key P} {secret : Bytes}
    (hk : ring.keys[i]? = some k) (hl : after.keys[j]? = some l) (hs : k.secret = some h)
    (hs' : l.secret = some h') (hpoint : l.point = k.point) (hform : l.compressed = k.compressed)
    (hbytes : (ring.vault.get h).toBytes scalarSize = .ok secret)
    (hbytes' : (after.vault.get h').toBytes scalarSize = .ok secret) :
    Agrees backend ring i after j where
  getPrivate := by
    simp only [perform, withKey, hk, hl, looking, Key.getPrivate, hs, hs', hbytes, hbytes']
  getPublic := by
    simp only [perform, withKey, hk, hl, looking, Key.getPublic, hpoint, hform]
  toDer := by
    simp only [perform, withKey, hk, hl, looking, Key.toDer, hs, hs', hpoint, hform]
    cases k.point with
    | none => rfl
    | some Q =>
        dsimp only
        rw [hbytes, hbytes']
  compressed := by rw [hk, hl, Option.map_some, Option.map_some, hform]

/-! ## Export and import -/

/-- What importing `der` into the keyring `other` comes to, if `der` is the export of key `i`,
which holds the scalar `d` and the point `Q`. -/
structure Imported (𝔾 : PointGroup backend E) (ring : Keyring P) (i d : Nat) (Q : P) (der : Bytes)
    (other : Keyring P) : Prop where
  succeeds_iff : (∃ answer, (other.perform backend (.ofDer (.bytes der))).1 = .ok answer)
    ↔ 𝔾.Matches d Q
  refused : ∀ e, (other.perform backend (.ofDer (.bytes der))).1 = .error e →
    e.errorClass? = some .decode
  /-- The key that is made is a new one, and it agrees with key `i`. -/
  made : ∀ answer after, other.perform backend (.ofDer (.bytes der)) = (.ok answer, after) →
    answer = .made other.keys.length [] ∧ Agrees backend ring i after other.keys.length
  /-- It equals every key with the same scalar and point, and so does that key equal it; when
  a key is imported into its own keyring, it is one of these. -/
  equal : ∀ answer after j, other.perform backend (.ofDer (.bytes der)) = (.ok answer, after) →
    other.HoldsScalar j d → other.point? j = some Q →
      after.perform backend (.equals other.keys.length j) = (.ok (.truth true), after)
        ∧ after.perform backend (.equals j other.keys.length) = (.ok (.truth true), after)

/-- What exporting key `i` comes to, and what becomes of the export. -/
structure Exported (𝔾 : PointGroup backend E) (ring : Keyring P) (i : Nat) : Prop where
  none_iff : (ring.perform backend (.toDer i)).1 = .ok (.bytes? none)
    ↔ ring.secretAt i = none ∨ ring.point? i = none
  /-- A key with both halves holds a scalar of some size, and is exported if it fits. -/
  halves : ∀ h Q, ring.secretAt i = some h → ring.point? i = some Q →
    ∃ d, ring.HoldsScalar i d
      ∧ ((∃ e, (ring.perform backend (.toDer i)).1 = .error e) ↔ 256 ^ 32 ≤ d)
      ∧ (∀ e, (ring.perform backend (.toDer i)).1 = .error e → e.errorClass? = some .encoding)
      ∧ (d < 256 ^ 32 → ∃ der, (ring.perform backend (.toDer i)).1 = .ok (.bytes? (some der))
          ∧ ∀ other : Keyring P, Imported 𝔾 ring i d Q der other)

section

variable {other : Keyring P} {data : Argument} {w : Vault}

theorem perform_ofDer_ok {l : Key P} (h : Key.ofDer backend data other.vault = (.ok l, w)) :
    other.perform backend (.ofDer data)
      = (.ok (.made other.keys.length []), ⟨w, other.keys ++ [l]⟩) := by
  rw [perform, h]
  rfl

theorem perform_ofDer_error {e : Failure}
    (h : Key.ofDer backend data other.vault = (.error e, w)) :
    other.perform backend (.ofDer data) = (.error e, ⟨w, other.keys⟩) := by
  rw [perform, h]
  rfl

end

/-- Two live containers with one scalar, next to one point, make equal keys. -/
theorem perform_equals {i j h h' : Nat} {buffer buffer' : Bytes} {k l : Key P}
    (hk : ring.keys[i]? = some k) (hl : ring.keys[j]? = some l) (hs : k.secret = some h)
    (hs' : l.secret = some h') (hv : ring.vault.get h = .live buffer)
    (hv' : ring.vault.get h' = .live buffer') (hd : Bytes.toNat buffer = Bytes.toNat buffer')
    (hpoint : k.point = l.point) :
    ring.perform backend (.equals i j) = (.ok (.truth true), ring) := by
  have hsecrets : Key.secretsAgree ring.vault k.secret l.secret = true := by
    rw [hs, hs', Key.secretsAgree, hv, hv', SecretScalar.equals, hd, beq_self_eq_true]
  have hequals : k.equals backend ring.vault l = true := by
    rw [Key.equals, hsecrets]
    simp only [Key.hasPrivate, Key.hasPublic, Key.publicPoint, hpoint, hs, hs', Option.isSome_some,
      beq_self_eq_true, Bool.and_self]
  rw [perform, withKey, hk]
  dsimp only
  rw [withKey, hl]
  dsimp only
  rw [hequals]
  rfl

section

variable {k : Key P} {h d : Nat} {Q : P} {der buffer : Bytes} {other : Keyring P}

/-- The keyring in which a copy of key `i` was made, with its scalar in 32 bytes. -/
def withCopy (other : Keyring P) (d : Nat) (Q : P) (compressed : Bool) : Keyring P :=
  ⟨(other.vault.put (.live (Bytes.ofNat scalarSize d))).2,
    other.keys ++ [⟨some other.vault.cells.length, some Q, compressed⟩]⟩

theorem keys_withCopy (other : Keyring P) (d : Nat) (Q : P) (compressed : Bool) :
    (other.withCopy d Q compressed).keys[other.keys.length]?
      = some ⟨some other.vault.cells.length, some Q, compressed⟩ :=
  List.getElem?_concat_length

theorem get_withCopy (other : Keyring P) (d : Nat) (Q : P) (compressed : Bool) :
    (other.withCopy d Q compressed).vault.get other.vault.cells.length
      = .live (Bytes.ofNat scalarSize d) :=
  Vault.get_put_length _ _

/-- The copy agrees with the key that it was made of. -/
theorem agrees_withCopy (hk : ring.keys[i]? = some k) (hs : k.secret = some h)
    (hv : ring.vault.get h = .live buffer) (hd : Bytes.toNat buffer = d)
    (hlt : d < 256 ^ scalarSize) (hpoint : k.point = some Q) :
    Agrees backend ring i (other.withCopy d Q k.compressed) other.keys.length := by
  subst hd
  have hval := Bytes.toNat_ofNat hlt
  have hbytes : (ring.vault.get h).toBytes scalarSize
      = .ok (Bytes.ofNat scalarSize (Bytes.toNat buffer)) := by
    rw [hv, SecretScalar.toBytes_of_fits hlt]
  refine agrees_of_bytes hk (keys_withCopy _ _ _ _) hs rfl hpoint.symm rfl hbytes ?_
  rw [get_withCopy, SecretScalar.toBytes_of_fits (hval.symm ▸ hlt), hval]

/-- The copy equals every key with its scalar and point. -/
theorem equals_withCopy {j : Nat} {compressed : Bool} (hlt : d < 256 ^ scalarSize)
    (hscalar : other.HoldsScalar j d) (hp : other.point? j = some Q) :
    let after := other.withCopy d Q compressed
    after.perform backend (.equals other.keys.length j) = (.ok (.truth true), after)
      ∧ after.perform backend (.equals j other.keys.length) = (.ok (.truth true), after) := by
  obtain ⟨h', buffer', hs', hv', hd'⟩ := hscalar
  obtain ⟨l, hl, hs'⟩ := exists_key_of_secretAt hs'
  obtain ⟨l', hl', hpoint⟩ := exists_key_of_point? hp
  obtain rfl := Option.some.inj (hl.symm.trans hl')
  -- The older key keeps its place, and its container too.
  have hold : (other.withCopy d Q compressed).keys[j]? = some l := by
    rw [withCopy, List.getElem?_append_left (List.getElem?_eq_some_iff.mp hl).1]
    exact hl
  have hcell : (other.withCopy d Q compressed).vault.get h' = .live buffer' := by
    rw [withCopy, Vault.get_put, if_neg, hv']
    have := Vault.lt_length_of_live (h := h') (v := other.vault) (by rw [hv']; rfl)
    omega
  have hval : Bytes.toNat (Bytes.ofNat scalarSize d) = Bytes.toNat buffer' := by
    rw [Bytes.toNat_ofNat hlt, hd']
  constructor
  · exact perform_equals (keys_withCopy _ _ _ _) hold rfl hs' (get_withCopy _ _ _ _) hcell hval
      hpoint.symm
  · exact perform_equals hold (keys_withCopy _ _ _ _) hs' rfl hcell (get_withCopy _ _ _ _)
      hval.symm hpoint

/-- The import of what holds scalar and point of key `i`. -/
theorem imported_of_readParts (𝔾 : PointGroup backend E) (hk : ring.keys[i]? = some k)
    (hs : k.secret = some h) (hv : ring.vault.get h = .live buffer) (hd : Bytes.toNat buffer = d)
    (hpoint : k.point = some Q) (hQ : Given backend Q) (hlt : d < 256 ^ scalarSize)
    (hparts : EcPrivateKey.readParts backend .secp256k1 der
      = .ok (Bytes.ofNat scalarSize d, some (backend.format Q k.compressed)))
    (other : Keyring P) : Imported 𝔾 ring i d Q der other := by
  rcases Key.ofDer_exported 𝔾 hQ hlt hparts other.vault with ⟨hmatch, hof⟩ | ⟨hno, cause, w, hof⟩
  · have hperform : other.perform backend (.ofDer (.bytes der))
        = (.ok (.made other.keys.length []), other.withCopy d Q k.compressed) :=
      perform_ofDer_ok hof
    constructor
    · rw [hperform]
      exact ⟨fun _ => hmatch, fun _ => ⟨_, rfl⟩⟩
    · intro e he
      rw [hperform] at he
      cases he
    · intro answer after hok
      rw [hperform] at hok
      cases hok
      exact ⟨rfl, agrees_withCopy hk hs hv hd hlt hpoint⟩
    · intro answer after j hok hscalar hp
      rw [hperform] at hok
      cases hok
      exact equals_withCopy hlt hscalar hp
  · have hperform := perform_ofDer_error hof
    constructor
    · rw [hperform]
      refine ⟨?_, fun hmatch => absurd hmatch hno⟩
      rintro ⟨answer, hok⟩
      cases hok
    · intro e he
      rw [hperform] at he
      cases he
      rfl
    · intro answer after hok
      rw [hperform] at hok
      cases hok
    · intro answer after j hok
      rw [hperform] at hok
      cases hok

end

theorem perform_toDer {k : Key P} (hk : ring.keys[i]? = some k) :
    (ring.perform backend (.toDer i)).1 = (k.toDer backend ring.vault).map .bytes? := by
  rw [perform, withKey, hk]
  rfl

/-- A key with both halves holds a scalar, and is exported if the scalar fits. -/
theorem exported_or_tooLarge (𝔾 : PointGroup backend E) (hr : Reachable backend ring) {k : Key P}
    {h : Nat} {Q : P} (hk : ring.keys[i]? = some k) (hs : k.secret = some h)
    (hp : k.point = some Q) :
    ∃ d, ring.HoldsScalar i d
      ∧ ((256 ^ 32 ≤ d ∧ k.toDer backend ring.vault = .error (.encoding .secretTooLarge))
        ∨ (d < 256 ^ 32 ∧ ∃ der, k.toDer backend ring.vault = .ok (some der)
          ∧ ∀ other : Keyring P, Imported 𝔾 ring i d Q der other)) := by
  have hscalar : scalarSize = 32 := rfl
  obtain ⟨d, h', buffer, hs', hv, hval⟩ := hr.holdsScalar ((secretAt_eq hk).trans hs)
  refine ⟨d, ⟨h', buffer, hs', hv, hval⟩, ?_⟩
  obtain rfl := Option.some.inj (hs.symm.trans ((secretAt_eq hk).symm.trans hs'))
  have hQ := hr.sourced k (List.mem_of_getElem? hk) Q hp
  rw [← hscalar]
  rcases Nat.lt_or_ge d (256 ^ scalarSize) with hlt | hge
  · obtain ⟨der, hder, hparts⟩ := Key.exists_toDer hs hv hp (hval.symm ▸ hlt)
      (𝔾.length_format k.compressed hQ)
    rw [hval] at hparts
    exact .inr ⟨hlt, der, hder, imported_of_readParts 𝔾 hk hs hv hval hp hQ hlt hparts⟩
  · exact .inl ⟨hge, Key.toDer_of_tooLarge hs hv hp (hval.symm ▸ hge)⟩

/-- What a key is exported to depends on its halves alone, and so does whether the export is
a key again. -/
theorem exported_of_reachable (𝔾 : PointGroup backend E) (hr : Reachable backend ring)
    (hi : i < ring.keys.length) : Exported 𝔾 ring i := by
  have hk := List.getElem?_eq_getElem hi
  set k := ring.keys[i]
  have hsecret : ring.secretAt i = k.secret := secretAt_eq hk
  have hpoint : ring.point? i = k.point := by rw [point?, hk, Option.bind_some]
  have hto : (ring.perform backend (.toDer i)).1 = (k.toDer backend ring.vault).map .bytes? :=
    perform_toDer hk
  constructor
  · rw [hto, hsecret, hpoint]
    constructor
    · intro hnone
      -- With both halves there is something, or an error.
      by_contra hhalves
      rw [not_or] at hhalves
      obtain ⟨h, hs⟩ := Option.ne_none_iff_exists'.mp hhalves.1
      obtain ⟨Q, hp⟩ := Option.ne_none_iff_exists'.mp hhalves.2
      obtain ⟨d, -, ⟨-, herr⟩ | ⟨-, der, hder, -⟩⟩ := exported_or_tooLarge 𝔾 hr hk hs hp
      · rw [herr] at hnone
        cases hnone
      · rw [hder] at hnone
        cases hnone
    · intro hmissing
      rw [Key.toDer_of_missing hmissing]
      rfl
  · intro h Q hs hp
    rw [hsecret] at hs
    rw [hpoint] at hp
    obtain ⟨d, hd, hcases⟩ := exported_or_tooLarge 𝔾 hr hk hs hp
    refine ⟨d, hd, ?_⟩
    rw [hto]
    rcases hcases with ⟨hge, herr⟩ | ⟨hlt, der, hder, himport⟩
    · rw [herr]
      refine ⟨⟨fun _ => hge, fun _ => ⟨_, rfl⟩⟩, ?_, fun hlt => absurd hge (Nat.not_le.mpr hlt)⟩
      intro e he
      cases he
      rfl
    · rw [hder]
      refine ⟨⟨?_, fun hge => absurd hge (Nat.not_le.mpr hlt)⟩, ?_, fun _ => ⟨der, rfl, himport⟩⟩
      · rintro ⟨e, he⟩
        cases he
      · intro e he
        cases he

/-- A key that was given the scalar two with zeros in front, and then its point. -/
def ringOfTwo : Keyring Point :=
  let made := (empty.perform Backend.secp256k1 .new).2
  let set := (made.perform Backend.secp256k1 (.setPrivate 0 (.bytes [0, 0, 2]))).2
  (set.perform Backend.secp256k1 (.regenerate 0)).2

theorem exported_of_reachable_two :
    Reachable Backend.secp256k1 ringOfTwo ∧ 0 < ringOfTwo.keys.length
      ∧ ringOfTwo.HoldsScalar 0 2 ∧ (ringOfTwo.point? 0).isSome = true
      ∧ Exported pointGroup ringOfTwo 0 := by
  have hr : Reachable Backend.secp256k1 ringOfTwo :=
    ((Reachable.empty.perform .new).perform (.setPrivate 0 (.bytes [0, 0, 2]))).perform
      (.regenerate 0)
  have hi : 0 < ringOfTwo.keys.length := by decide +kernel
  have hs : ringOfTwo.secretAt 0 = some 1 := by decide +kernel
  have hv : ringOfTwo.vault.get 1 = .live [0, 0, 2] := by decide +kernel
  have hp : (ringOfTwo.point? 0).isSome = true := by decide +kernel
  exact ⟨hr, hi, ⟨1, [0, 0, 2], hs, hv, rfl⟩, hp, exported_of_reachable pointGroup hr hi⟩

end SecpKey.Keyring
