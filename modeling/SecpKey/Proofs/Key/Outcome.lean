/-
  SecpKey.Proofs.Key.Outcome

  What each operation of a key that makes containers can come to, in a vault of any contents.
  The rules of `GenerateOutcome`, `ImportOutcome`, `RegenerateOutcome` and `SignOutcome` list the
  answers next to the vault that is left behind; whatever is to be said of such an operation, of
  its containers, its failures or its points, follows from them by cases.
-/
import SecpKey.Key
import SecpKey.Proofs.EcPrivateKey.Refusal
import SecpKey.Proofs.EcPrivateKey.RoundTrip
import SecpKey.Proofs.SecretScalar.FixedWidth
import SecpKey.Proofs.Vault

namespace SecpKey.Key

variable {P : Type} {backend : Backend P}

/-- The scalar in a live container, as the 32 bytes that are handed on. -/
theorem toBytes_of_get {v : Vault} {h : Nat} {buffer : Bytes} (hv : v.get h = .live buffer)
    (hd : Bytes.toNat buffer < groupOrder) :
    (v.get h).toBytes scalarSize = .ok (Bytes.ofNat scalarSize (Bytes.toNat buffer)) := by
  rw [hv, SecretScalar.toBytes_scalarSize hd]

/-! ## Drawing a scalar -/

/-- The candidates that are drawn until one is taken, or the source fails. -/
def drawn : List Draw → Nat
  | [] => 0
  | .failure _ :: _ => 0
  | .candidate data :: rest => if isValidScalar (Bytes.toNat data) then 1 else drawn rest + 1

/-- What drawing a secret key can come to. -/
inductive GenerateOutcome (backend : Backend P) (draws : List Draw) (v : Vault) :
    Outcome (Key P × List Draw) → Prop
  /-- No key: all candidates that were drawn have been wiped. -/
  | failed {cause : RandomnessFault} {w : Vault} (hv : v.Kept w)
      (hlen : w.cells.length = v.cells.length + drawn draws) :
      GenerateOutcome backend draws v (.error (.randomness cause), w)
  /-- All but the last one have been wiped, and that one is in range. -/
  | made {u : Vault} {data : Bytes} {Q : P} {left : List Draw} (hv : v.Kept u)
      (hlen : u.cells.length + 1 = v.cells.length + drawn draws)
      (range : 1 ≤ Bytes.toNat data ∧ Bytes.toNat data < groupOrder)
      (expected : backend.ofScalar (Bytes.toNat data) = .ok Q) :
      GenerateOutcome backend draws v
        (.ok (⟨some u.cells.length, some Q, false⟩, left), (u.put (.live data)).2)

/-- A candidate that is turned down is wiped, and drawing goes on. -/
theorem GenerateOutcome.cons {data : Bytes} {rest : List Draw} {v : Vault}
    {outcome : Outcome (Key P × List Draw)} (hinvalid : isValidScalar (Bytes.toNat data) = false)
    (h : GenerateOutcome backend rest ((v.put (.live data)).2.wipe v.cells.length) outcome) :
    GenerateOutcome backend (.candidate data :: rest) v outcome := by
  have hwipe := Vault.kept_put_wipe v (.live data)
  have hone : ((v.put (.live data)).2.wipe v.cells.length).cells.length = v.cells.length + 1 := by
    rw [Vault.length_wipe, Vault.length_put]
  have hdrawn : drawn (.candidate data :: rest) = drawn rest + 1 := by
    rw [drawn, hinvalid]
    rfl
  cases h with
  | failed hv hlen => exact .failed (hwipe.trans hv) (by omega)
  | made hv hlen range expected => exact .made (hwipe.trans hv) (by omega) range expected

section

variable {data : Bytes} (rest : List Draw) (v : Vault)

/-- A candidate out of range is wiped, and the next one is drawn. -/
theorem generate_of_invalid (h : isValidScalar (Bytes.toNat data) = false) :
    generate backend (.candidate data :: rest) v
      = generate backend rest ((v.put (.live data)).2.wipe v.cells.length) := by
  rw [generate, Vault.put_eq]
  dsimp only
  rw [if_neg (Bool.eq_false_iff.mp h)]

/-- One in range fits 32 bytes, so no other fault than a refusal of the backend can occur. -/
theorem generate_of_valid (h : isValidScalar (Bytes.toNat data) = true) :
    generate backend (.candidate data :: rest) v
      = match backend.ofScalar (Bytes.toNat data) with
        | .error text =>
          (.error (.randomness (.refused text)), (v.put (.live data)).2.wipe v.cells.length)
        | .ok Q =>
          (.ok (⟨some v.cells.length, some Q, false⟩, rest), (v.put (.live data)).2) := by
  have hd := isValidScalar_natCast.mp h
  rw [generate, Vault.put_eq]
  dsimp only
  rw [if_pos h, toBytes_of_get (Vault.get_put_length v _) hd.2]
  dsimp only
  generalize hval : Bytes.toNat (Bytes.ofNat scalarSize (Bytes.toNat data)) = d
  obtain rfl := (SecretScalar.toNat_ofNat_scalarSize hd.2).symm.trans hval
  cases backend.ofScalar (Bytes.toNat data) with
  | error text => rfl
  | ok Q => rfl

end

theorem outcome_generate (draws : List Draw) (v : Vault) :
    GenerateOutcome backend draws v (generate backend draws v) := by
  -- On the draws, for every vault: a candidate that is turned down leaves a longer one.
  induction draws generalizing v with
  | nil => exact .failed (Vault.Kept.refl v) rfl
  | cons draw rest ih =>
      cases draw with
      | failure text => exact .failed (Vault.Kept.refl v) rfl
      | candidate data =>
          cases hvalid : isValidScalar (Bytes.toNat data) with
          | false =>
              rw [generate_of_invalid rest v hvalid]
              exact (ih _).cons hvalid
          | true =>
              have hdrawn : drawn (.candidate data :: rest) = 1 := by rw [drawn, if_pos hvalid]
              rw [generate_of_valid rest v hvalid]
              split
              · refine .failed (Vault.kept_put_wipe v _) ?_
                rw [Vault.length_wipe, Vault.length_put, hdrawn]
              · next Q expected =>
                exact .made (Vault.Kept.refl v) (by rw [hdrawn])
                  (isValidScalar_natCast.mp hvalid) expected

/-! ## Importing a private key -/

section

variable {data : Bytes} {publicKey : Option Bytes} {d : Nat} {Q : P} {compressed : Bool}

/-- What is decoded fits 32 bytes, so it depends on the two points alone whether a key comes of
it. -/
theorem ofDer_of_decode (range : 1 ≤ d ∧ d < groupOrder)
    (decoded : EcPrivateKey.decode backend .secp256k1 data
      = .ok ⟨Bytes.ofNat scalarSize d, publicKey⟩) (v : Vault) :
    ofDer backend (.bytes data) v
      = match backend.ofScalar d with
        | .error text =>
          (.error (.decode (.secretRefused text)),
            (v.put (.live (Bytes.ofNat scalarSize d))).2.wipe v.cells.length)
        | .ok expected =>
          match decodedPoint backend expected publicKey with
          | .error e =>
            (.error e, (v.put (.live (Bytes.ofNat scalarSize d))).2.wipe v.cells.length)
          | .ok (Q, compressed) =>
            (.ok ⟨some v.cells.length, some Q, compressed⟩,
              (v.put (.live (Bytes.ofNat scalarSize d))).2) := by
  have hval := SecretScalar.toNat_ofNat_scalarSize range.2
  have hbytes : Argument.ensureBytes "der" (.bytes data) = .ok data := rfl
  rw [ofDer, hbytes]
  dsimp only
  rw [decoded]
  dsimp only
  rw [Vault.put_eq]
  dsimp only
  rw [toBytes_of_get (Vault.get_put_length _ _) (hval.symm ▸ range.2), hval]
  cases hR : backend.ofScalar d with
  | error text => simp only [hval, hR]
  | ok R =>
      cases hpoint : decodedPoint backend R publicKey with
      | error e => simp only [hval, hR, hpoint]
      | ok made => simp only [hval, hR, hpoint]

/-- The bytes are decoded as the scalar `d` and a public key, and come to the point `Q`, which
is exported in the form that `compressed` says. -/
inductive Imports (backend : Backend P) (data : Bytes) : Option Bytes → Nat → P → Bool → Prop
  /-- Without a public key the point is the one that belongs to the scalar. -/
  | derived {d : Nat} {Q : P} (range : 1 ≤ d ∧ d < groupOrder)
      (decoded : EcPrivateKey.decode backend .secp256k1 data
        = .ok ⟨Bytes.ofNat scalarSize d, none⟩)
      (expected : backend.ofScalar d = .ok Q) :
      Imports backend data none d Q false
  /-- With one it is the one that is embedded, if it has the same coordinates. -/
  | embedded {d : Nat} {bytes : Bytes} {Q R : P} (range : 1 ≤ d ∧ d < groupOrder)
      (decoded : EcPrivateKey.decode backend .secp256k1 data
        = .ok ⟨Bytes.ofNat scalarSize d, some bytes⟩)
      (expected : backend.ofScalar d = .ok R) (parsed : backend.parse? bytes = some Q)
      (same : backend.coordinates Q = backend.coordinates R) :
      Imports backend data (some bytes) d Q (bytes.length == compressedSize)

namespace Imports

theorem range (h : Imports backend data publicKey d Q compressed) : 1 ≤ d ∧ d < groupOrder := by
  cases h with
  | derived range _ _ => exact range
  | embedded range _ _ _ _ => exact range

theorem decoded (h : Imports backend data publicKey d Q compressed) :
    EcPrivateKey.decode backend .secp256k1 data
      = .ok ⟨Bytes.ofNat scalarSize d, publicKey⟩ := by
  cases h with
  | derived _ decoded _ => exact decoded
  | embedded _ decoded _ _ _ => exact decoded

theorem compressed_iff (h : Imports backend data publicKey d Q compressed) :
    compressed = true ↔ ∃ bytes, publicKey = some bytes ∧ bytes.length = compressedSize := by
  cases h with
  | derived _ _ _ => simp
  | embedded _ _ _ _ _ => simp

/-- The scalar's multiple of the generator has the coordinates of the point. -/
theorem exists_expected (h : Imports backend data publicKey d Q compressed) :
    ∃ R, backend.ofScalar d = .ok R ∧ backend.coordinates Q = backend.coordinates R := by
  cases h with
  | derived _ _ expected => exact ⟨Q, expected, rfl⟩
  | embedded _ _ expected _ same => exact ⟨_, expected, same⟩

theorem exists_decodedPoint (h : Imports backend data publicKey d Q compressed) :
    ∃ R, backend.ofScalar d = .ok R ∧ decodedPoint backend R publicKey = .ok (Q, compressed) := by
  cases h with
  | derived _ _ expected => exact ⟨Q, expected, rfl⟩
  | embedded _ _ expected parsed same =>
      refine ⟨_, expected, ?_⟩
      rw [decodedPoint, parsed]
      exact if_pos same

/-- Bytes are imported as what they denote, into any vault. -/
theorem ofDer (h : Imports backend data publicKey d Q compressed) (v : Vault) :
    Key.ofDer backend (.bytes data) v
      = (.ok ⟨some v.cells.length, some Q, compressed⟩,
          (v.put (.live (Bytes.ofNat scalarSize d))).2) := by
  obtain ⟨R, expected, hpoint⟩ := h.exists_decodedPoint
  rw [ofDer_of_decode h.range h.decoded, expected]
  dsimp only
  rw [hpoint]

end Imports

theorem imports_of_decodedPoint {R : P} (range : 1 ≤ d ∧ d < groupOrder)
    (decoded : EcPrivateKey.decode backend .secp256k1 data
      = .ok ⟨Bytes.ofNat scalarSize d, publicKey⟩)
    (expected : backend.ofScalar d = .ok R)
    (hpoint : decodedPoint backend R publicKey = .ok (Q, compressed)) :
    Imports backend data publicKey d Q compressed := by
  cases publicKey with
  | none =>
      cases hpoint
      exact .derived range decoded expected
  | some bytes =>
      rw [decodedPoint] at hpoint
      split at hpoint
      · cases hpoint
      next parsed =>
      split at hpoint
      · next same =>
        cases hpoint
        exact .embedded range decoded expected parsed same
      · cases hpoint

end

/-- What importing a private key can come to. -/
inductive ImportOutcome (backend : Backend P) (v : Vault) : Argument → Outcome (Key P) → Prop
  | unread {a : Argument} {e : Failure} (h : a.ensureBytes "der" = .error e) :
      ImportOutcome backend v a (.error e, v)
  | undecoded {data : Bytes} {e : Failure}
      (h : EcPrivateKey.decode backend .secp256k1 data = .error e) :
      ImportOutcome backend v (.bytes data) (.error e, v)
  /-- What is decoded has a container, which is wiped if no point comes of it. -/
  | refused {data : Bytes} {decoded : EcPrivateKey.Decoded} {e : Failure}
      (h : EcPrivateKey.decode backend .secp256k1 data = .ok decoded)
      (hclass : e.errorClass? = some .decode) :
      ImportOutcome backend v (.bytes data)
        (.error e, (v.put (.live decoded.secret)).2.wipe v.cells.length)
  | made {data : Bytes} {publicKey : Option Bytes} {d : Nat} {Q : P} {compressed : Bool}
      (h : Imports backend data publicKey d Q compressed) :
      ImportOutcome backend v (.bytes data)
        (.ok ⟨some v.cells.length, some Q, compressed⟩,
          (v.put (.live (Bytes.ofNat scalarSize d))).2)

theorem refuses_decodedPoint (expected : P) (publicKey : Option Bytes) :
    EcPrivateKey.Refuses (decodedPoint backend expected publicKey) := by
  cases publicKey with
  | none => exact .ok _
  | some publicKey =>
      unfold decodedPoint
      dsimp only
      split
      · exact .error rfl
      · exact .ite (.ok _) (.error rfl)

theorem outcome_ofDer (a : Argument) (v : Vault) :
    ImportOutcome backend v a (ofDer backend a v) := by
  cases a with
  | released => exact .unread rfl
  | absent => exact .unread rfl
  | other typeName shape => exact .unread rfl
  | bytes data =>
      cases hdec : EcPrivateKey.decode backend .secp256k1 data with
      | error e =>
          rw [ofDer]
          dsimp only [Argument.ensureBytes]
          rw [hdec]
          exact .undecoded hdec
      | ok decoded =>
          obtain ⟨secret, publicKey⟩ := decoded
          obtain ⟨d, hd, rfl⟩ := EcPrivateKey.exists_of_decode hdec
          rw [ofDer_of_decode hd hdec]
          cases hR : backend.ofScalar d with
          | error text => exact .refused hdec rfl
          | ok R =>
              dsimp only
              cases hpoint : decodedPoint backend R publicKey with
              | error e => exact .refused hdec (refuses_decodedPoint R publicKey e hpoint)
              | ok made => exact .made (imports_of_decodedPoint hd hdec hR hpoint)

/-- A key comes of an import only if the bytes denote it. -/
theorem ImportOutcome.imports {data : Bytes} {v : Vault} {o : Outcome (Key P)} {k : Key P}
    (h : ImportOutcome backend v (.bytes data) o) (hok : o.1 = .ok k) :
    ∃ publicKey d Q compressed, Imports backend data publicKey d Q compressed := by
  cases h with
  | unread _ => cases hok
  | undecoded _ => cases hok
  | refused _ _ => cases hok
  | made himports => exact ⟨_, _, _, _, himports⟩

/-! ## Deriving the point -/

/-- What deriving the point from the scalar can come to. -/
inductive RegenerateOutcome (backend : Backend P) (k : Key P) (v : Vault) :
    Outcome (Key P) → Prop
  | missing (hs : k.secret = none) :
      RegenerateOutcome backend k v (.error (.precondition .regenerateNoPrivate), v)
  | wiped {old : Nat} (hs : k.secret = some old) (hv : v.get old = .wiped) :
      RegenerateOutcome backend k v (.error (.fault .wiped), v)
  /-- The copy is wiped when no point comes of it, -/
  | refused {old : Nat} {buffer : Bytes} {cause : PreconditionFault} (hs : k.secret = some old)
      (hv : v.get old = .live buffer) :
      RegenerateOutcome backend k v
        (.error (.precondition cause), (v.put (.live buffer)).2.wipe v.cells.length)
  /-- and takes the old container's place when one does. -/
  | made {old : Nat} {buffer : Bytes} {Q : P} (hs : k.secret = some old)
      (hv : v.get old = .live buffer)
      (range : 1 ≤ Bytes.toNat buffer ∧ Bytes.toNat buffer < groupOrder)
      (expected : backend.ofScalar (Bytes.toNat buffer) = .ok Q) :
      RegenerateOutcome backend k v
        (.ok { k with secret := some v.cells.length, point := some Q },
          (v.put (.live buffer)).2.wipe old)

theorem outcome_regenerate (k : Key P) (v : Vault) :
    RegenerateOutcome backend k v (k.regenerate backend v) := by
  unfold regenerate
  split
  · next hs => exact .missing hs
  next old hs =>
  cases hcell : v.get old with
  | wiped => exact .wiped hs hcell
  | live buffer =>
      dsimp only [SecretScalar.copy, SecretScalar.read, Except.map, SecretScalar.value]
      rw [Vault.put_eq]
      dsimp only
      split
      · next hvalid =>
        have hd := isValidScalar_natCast.mp hvalid
        rw [toBytes_of_get (Vault.get_put_length v _) hd.2]
        dsimp only
        rw [SecretScalar.toNat_ofNat_scalarSize hd.2]
        split
        · exact .refused hs hcell
        · next expected => exact .made hs hcell hd expected
      · exact .refused hs hcell

/-! ## Signing -/

/-- What signing can come to. -/
inductive SignOutcome (backend : Backend P) (k : Key P) (digest : Argument) (v : Vault) :
    Outcome Bytes → Prop
  | missing (hs : k.secret = none) :
      SignOutcome backend k digest v (.error (.precondition .noPrivate), v)
  | badDigest {e : Failure} (h : ensureDigest digest = .error e) :
      SignOutcome backend k digest v (.error e, v)
  | wiped {h : Nat} (hs : k.secret = some h) (hv : v.get h = .wiped) :
      SignOutcome backend k digest v (.error (.fault .wiped), v)
  /-- The copy that is signed with is wiped, whatever comes of it. -/
  | signed {h : Nat} {buffer bytes : Bytes} {answer : Except Failure Bytes}
      (hs : k.secret = some h) (hv : v.get h = .live buffer)
      (hdigest : ensureDigest digest = .ok bytes)
      (hclass : FailsOnly (·.errorClass? = some .signing) answer) :
      SignOutcome backend k digest v (answer, (v.put (.live buffer)).2.wipe v.cells.length)

theorem outcome_sign (k : Key P) (digest : Argument) (v : Vault) :
    SignOutcome backend k digest v (k.sign backend digest v) := by
  unfold sign
  split
  · next hs => exact .missing hs
  next h hs =>
  cases hdigest : ensureDigest digest with
  | error e => exact .badDigest hdigest
  | ok bytes =>
      cases hcell : v.get h with
      | wiped => exact .wiped hs hcell
      | live buffer =>
          dsimp only [SecretScalar.copy, SecretScalar.read, Except.map]
          rw [Vault.put_eq]
          dsimp only
          split
          · exact .signed hs hcell hdigest (.error rfl)
          split
          · split
            · exact .signed hs hcell hdigest (.error rfl)
            · exact .signed hs hcell hdigest (.ok _)
          · exact .signed hs hcell hdigest (.error rfl)

end SecpKey.Key
