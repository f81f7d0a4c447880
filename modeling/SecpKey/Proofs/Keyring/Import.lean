/-
  SecpKey.Proofs.Keyring.Import

  Which private keys are imported, and as what.  `assembly` puts a key together from the same
  parts with the setters, which check them in other ways; `Assembled` says that this makes the
  same key, and `ImportOf` what becomes of any byte string.
-/
import SecpKey.Proofs.Key.Failure
import SecpKey.Proofs.Key.Import
import SecpKey.Proofs.Keyring.ExportImport

namespace SecpKey.Keyring

variable {P : Type} {backend : Backend P} {ring : Keyring P}

/-! ## The same key from its parts -/

/-- What gives a key with a scalar its point: a public key, or else the scalar itself. -/
def pointFrom (key : Nat) : Option Bytes → KeyOp
  | some bytes => .setPublic key (.bytes bytes)
  | none => .regenerate key

/-- Put a new key together from the bytes of a scalar and, if there are any, of a public key. -/
def assembly (key : Nat) (buffer : Bytes) (publicKey : Option Bytes) : List KeyOp :=
  [.new, .setPrivate key (.bytes buffer), pointFrom key publicKey]

section

variable {keys : List (Key P)} {k l : Key P} {v w : Vault}

theorem withKey_last (act : Key P → Except Failure KeyAnswer × Keyring P) :
    withKey ⟨v, keys ++ [k]⟩ keys.length act = act k := by
  rw [withKey, List.getElem?_concat_length]

theorem changing_last : changing ⟨v, keys ++ [k]⟩ keys.length (.ok l, w)
    = (.ok .done, ⟨w, keys ++ [l]⟩) := by
  have hset : (keys ++ [k]).set keys.length l = keys ++ [l] := by
    rw [List.set_append_right _ _ (Nat.le_refl _), Nat.sub_self, List.set_cons_zero]
  show (Except.ok KeyAnswer.done, Keyring.mk w ((keys ++ [k]).set keys.length l)) = _
  rw [hset]

end

/-- The keyring in which a new key was given the bytes of a scalar. -/
def withScalar (other : Keyring P) (buffer : Bytes) : Keyring P :=
  ⟨(other.vault.put (.live buffer)).2,
    other.keys ++ [⟨some other.vault.cells.length, none, false⟩]⟩

theorem run_assembly (other : Keyring P) (buffer : Bytes) (publicKey : Option Bytes) :
    other.run backend (assembly other.keys.length buffer publicKey)
      = ((other.withScalar buffer).perform backend (pointFrom other.keys.length publicKey)).2 := by
  have hset : (perform backend ⟨other.vault, other.keys ++ [.empty]⟩
      (.setPrivate other.keys.length (.bytes buffer))).2 = other.withScalar buffer := by
    rw [perform, withKey_last]
    exact congrArg Prod.snd changing_last
  rw [← hset]
  rfl

section

variable {data : Bytes} {publicKey : Option Bytes} {d : Nat} {Q : P} {compressed : Bool}

/-- The parts of what bytes are imported as make a key with the same point in the same form,
and older containers are left alone. -/
theorem exists_assembled (hframed : ReadsFramed backend)
    (h : Key.Imports backend data publicKey d Q compressed) {buffer : Bytes}
    (hbuffer : Bytes.toNat buffer = d) (other : Keyring P) :
    ∃ v n, other.run backend (assembly other.keys.length buffer publicKey)
        = ⟨v, other.keys ++ [⟨some n, some Q, compressed⟩]⟩
      ∧ v.get n = .live buffer
      ∧ ∀ g < other.vault.cells.length, v.get g = other.vault.get g := by
  subst hbuffer
  let first := other.vault.cells.length
  let v := (other.vault.put (.live buffer)).2
  have hlive : v.get first = .live buffer := Vault.get_put_length _ _
  have hold : ∀ g < first, v.get g = other.vault.get g := fun _ hg => Vault.get_put_of_lt _ _ hg
  rw [run_assembly]
  cases h with
  | derived range _ expected =>
      -- The scalar moves on to a second container.
      have hlength : v.cells.length = first + 1 := Vault.length_put _ _
      refine ⟨(v.put (.live buffer)).2.wipe first, v.cells.length, ?_, ?_, fun g hg => ?_⟩
      · rw [pointFrom, perform, withScalar, withKey_last,
          Key.regenerate_of_live rfl hlive range expected, changing_last]
      · rw [Vault.get_wipe_of_ne _ (by omega), Vault.get_put_length]
      · rw [Vault.get_wipe_of_ne _ (by omega), Vault.get_put_of_lt _ _ (by omega), hold g hg]
  | @embedded _ bytes _ _ _ _ _ parsed _ =>
      refine ⟨v, first, ?_, hlive, hold⟩
      rw [pointFrom, perform, withScalar, withKey_last,
        Key.setPublic_of_parse (hframed parsed) parsed, changing_last]

end

/-! ## Imported keys -/

/-- A key with the scalar `d` and the point that belongs to it, which is the key that the setters
make of the scalar and the public key. -/
structure Assembled (backend : Backend P) (ring : Keyring P) (key d : Nat)
    (publicKey : Option Bytes) : Prop where
  holds : ring.HoldsScalar key d
  hasPublic : (ring.point? key).isSome = true
  publicPoint : (ring.perform backend (.publicPoint key)).1
    = .ok (.point? (generatorMultiple? d))
  compressed_iff : ∀ k, ring.keys[key]? = some k →
    (k.compressed = true ↔ ∃ bytes, publicKey = some bytes ∧ bytes.length = 33)
  /-- Wherever the other key is made, and in however many bytes its scalar is given, -/
  agrees : ∀ buffer, Bytes.toNat buffer = d → ∀ other : Keyring P,
    Agrees backend ring key
      (other.run backend (assembly other.keys.length buffer publicKey)) other.keys.length
  /-- and if it is made in the same keyring, it is equal as well. -/
  equal : ∀ buffer, Bytes.toNat buffer = d →
    let both := ring.run backend (assembly ring.keys.length buffer publicKey)
    both.perform backend (.equals key ring.keys.length) = (.ok (.truth true), both)
      ∧ both.perform backend (.equals ring.keys.length key) = (.ok (.truth true), both)

/-- What importing `data` into a keyring comes to. -/
structure ImportOf (backend : Backend P) (ring : Keyring P) (data : Bytes) : Prop where
  succeeds_iff : (∃ answer, (ring.perform backend (.ofDer (.bytes data))).1 = .ok answer)
    ↔ ∃ decoded, EcPrivateKey.decode backend .secp256k1 data = .ok decoded
        ∧ PartsAgree backend (Bytes.toNat decoded.secret) decoded.publicKey
  refused : ∀ e, (ring.perform backend (.ofDer (.bytes data))).1 = .error e →
    e.errorClass? = some .decode
  made : ∀ answer after decoded, ring.perform backend (.ofDer (.bytes data)) = (.ok answer, after) →
    EcPrivateKey.decode backend .secp256k1 data = .ok decoded →
      answer = .made ring.keys.length []
        ∧ Assembled backend after ring.keys.length (Bytes.toNat decoded.secret) decoded.publicKey

section

variable {data : Bytes} {publicKey : Option Bytes} {d : Nat} {Q : P} {compressed : Bool}

theorem perform_ofDer_of_imports (h : Key.Imports backend data publicKey d Q compressed)
    (ring : Keyring P) : ring.perform backend (.ofDer (.bytes data))
      = (.ok (.made ring.keys.length []), ring.withCopy d Q compressed) :=
  perform_ofDer_ok (h.ofDer ring.vault)

/-- The outcome does not depend on the keyring. -/
theorem exists_imports_of_perform {answer : KeyAnswer}
    (h : (ring.perform backend (.ofDer (.bytes data))).1 = .ok answer) :
    ∃ publicKey d Q compressed, Key.Imports backend data publicKey d Q compressed := by
  rcases hmade : Key.ofDer backend (.bytes data) ring.vault with ⟨e | k, w⟩
  · rw [perform_ofDer_error hmade] at h
    cases h
  · exact (Key.outcome_ofDer (.bytes data) ring.vault).imports (congrArg Prod.fst hmade)

theorem holdsScalar_withCopy (ring : Keyring P) (hd : d < groupOrder) (Q : P)
    (compressed : Bool) : (ring.withCopy d Q compressed).HoldsScalar ring.keys.length d :=
  ⟨ring.vault.cells.length, _, secretAt_eq (keys_withCopy _ _ _ _), get_withCopy _ _ _ _,
    SecretScalar.toNat_ofNat_scalarSize hd⟩

/-- An imported key is the one that its parts make. -/
theorem assembled_withCopy (hmul : MultipliesGenerator backend) (hframed : ReadsFramed backend)
    (h : Key.Imports backend data publicKey d Q compressed) (ring : Keyring P) :
    Assembled backend (ring.withCopy d Q compressed) ring.keys.length d publicKey := by
  have hd := h.range
  have hval := SecretScalar.toNat_ofNat_scalarSize hd.2
  have hk := keys_withCopy ring d Q compressed
  have hcell := get_withCopy ring d Q compressed
  have hbytes :
      ((ring.withCopy d Q compressed).vault.get ring.vault.cells.length).toBytes scalarSize
        = .ok (Bytes.ofNat scalarSize d) := by
    rw [Key.toBytes_of_get hcell (hval.symm ▸ hd.2), hval]
  constructor
  · exact holdsScalar_withCopy ring hd.2 Q compressed
  · rw [point?, hk]
    rfl
  · obtain ⟨R, hR, hsame⟩ := h.exists_expected
    obtain ⟨R', hR', hmultiple⟩ := hmul hd
    obtain rfl := Except.ok.inj (hR.symm.trans hR')
    rw [perform, withKey, hk, hmultiple, ← hsame]
    rfl
  · intro k hk'
    obtain rfl := Option.some.inj (hk.symm.trans hk')
    exact h.compressed_iff
  · intro buffer hbuffer other
    obtain ⟨v, n, hrun, hv, -⟩ := exists_assembled hframed h hbuffer other
    rw [hrun]
    refine agrees_of_bytes hk List.getElem?_concat_length rfl rfl rfl rfl hbytes ?_
    rw [Key.toBytes_of_get hv (hbuffer.symm ▸ hd.2), hbuffer]
  · intro buffer hbuffer
    obtain ⟨v, n, hrun, hv, hold⟩ :=
      exists_assembled hframed h hbuffer (ring.withCopy d Q compressed)
    dsimp only
    rw [hrun]
    -- The imported key keeps its place and its container.
    have hk' : ((ring.withCopy d Q compressed).keys ++ [⟨some n, some Q, compressed⟩])[
        ring.keys.length]? = some ⟨some ring.vault.cells.length, some Q, compressed⟩ := by
      rw [List.getElem?_append_left (List.getElem?_eq_some_iff.mp hk).1]
      exact hk
    have hcell' : v.get ring.vault.cells.length = .live (Bytes.ofNat scalarSize d) := by
      rw [hold _ (Vault.lt_length_of_live (by rw [hcell]; rfl)), hcell]
    have hsame := hval.trans hbuffer.symm
    exact ⟨perform_equals hk' List.getElem?_concat_length rfl rfl hcell' hv hsame rfl,
      perform_equals List.getElem?_concat_length hk' rfl rfl hv hcell' hsame.symm rfl⟩

end

/-- A private key is imported exactly if its parts agree, and as the key that they make.  What is
no bytes is refused, and a released view is not even read. -/
theorem import_iff_parts_agree (hmul : MultipliesGenerator backend) (hframed : ReadsFramed backend)
    (ring : Keyring P) :
    (∀ data, ImportOf backend ring data)
      ∧ (∀ a : Argument, a.isBytesLike = false →
          ∃ e, ring.perform backend (.ofDer a) = (.error e, ring)
            ∧ e.errorClass? = some .invalidInput)
      ∧ ring.perform backend (.ofDer .released) = (.error (.fault .released), ring) := by
  refine ⟨?_, ?_, rfl⟩
  · intro data
    constructor
    · rw [← Key.exists_imports_iff hmul]
      constructor
      · rintro ⟨answer, hanswer⟩
        exact exists_imports_of_perform hanswer
      · rintro ⟨publicKey, d, Q, compressed, h⟩
        rw [perform_ofDer_of_imports h]
        exact ⟨_, rfl⟩
    · intro e he
      rcases hmade : Key.ofDer backend (.bytes data) ring.vault with ⟨f | k, w⟩
      · rw [perform_ofDer_error hmade] at he
        obtain rfl := Except.error.inj he
        exact (Key.outcome_ofDer (.bytes data) ring.vault).refuses f (congrArg Prod.fst hmade)
      · rw [perform_ofDer_ok hmade] at he
        cases he
    · intro answer after decoded hperform hdecoded
      obtain ⟨publicKey, d, Q, compressed, h⟩ :=
        exists_imports_of_perform (congrArg Prod.fst hperform)
      rw [perform_ofDer_of_imports h] at hperform
      obtain rfl := Except.ok.inj (h.decoded.symm.trans hdecoded)
      cases hperform
      dsimp only
      rw [SecretScalar.toNat_ofNat_scalarSize h.range.2]
      exact ⟨rfl, assembled_withCopy hmul hframed h ring⟩
  · intro a ha
    cases a with
    | bytes data => cases ha
    | released => cases ha
    | absent => exact ⟨_, rfl, rfl⟩
    | other typeName shape => exact ⟨_, rfl, rfl⟩

/-- The scalar two in a single byte, without parameters and without a public key. -/
def shortPrivateKey : Bytes := [0x30, 0x06, 0x02, 0x01, 0x01, 0x04, 0x01, 0x02]

theorem import_iff_parts_agree_short :
    MultipliesGenerator Backend.secp256k1 ∧ ReadsFramed Backend.secp256k1
      ∧ ((empty : Keyring Point).perform Backend.secp256k1 (.ofDer (.bytes shortPrivateKey))).1
          = .ok (.made 0 [])
      ∧ ImportOf Backend.secp256k1 empty shortPrivateKey := by
  have hmade : ((empty : Keyring Point).perform Backend.secp256k1
      (.ofDer (.bytes shortPrivateKey))).1 = .ok (.made 0 []) := by decide +kernel
  have hlaw := import_iff_parts_agree multipliesGenerator_secp256k1 readsFramed_secp256k1 empty
  exact ⟨multipliesGenerator_secp256k1, readsFramed_secp256k1, hmade, hlaw.1 shortPrivateKey⟩

end SecpKey.Keyring
