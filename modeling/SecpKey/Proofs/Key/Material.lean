/-
  SecpKey.Proofs.Key.Material

  A key without its containers.  `Material` is what a key amounts to: the number that its
  container holds, its point and its export form.  Every operation on a key whose container
  is live answers as the operation of the same name on its material, and leaves a key of
  the material that this one gives.  So the length of the buffer, the zeros in front of the
  scalar and the number of the container cannot be told from outside.
-/
import SecpKey.Proofs.Key.Containers

namespace SecpKey

variable {P : Type}

/-! ## Material -/

/-- What a key amounts to. -/
structure Material (P : Type) where
  scalar : Option Nat
  point : Option P
  compressed : Bool
  deriving DecidableEq, Repr

/-- The number in a container, unless it is wiped. -/
def SecretScalar.scalar? : SecretScalar → Option Nat
  | .live buffer => some (Bytes.toNat buffer)
  | .wiped => none

/-- The material of a key. -/
def Key.material (v : Vault) (k : Key P) : Material P :=
  ⟨k.secret.bind fun h => (v.get h).scalar?, k.point, k.compressed⟩

namespace Material

/-- A scalar as the 32 bytes that are handed on. -/
def secretBytes (d : Nat) : Except Failure Bytes :=
  if d < 256 ^ scalarSize then .ok (Bytes.ofNat scalarSize d)
  else .error (.encoding .secretTooLarge)

def getPrivate (m : Material P) : Except Failure (Option Bytes) :=
  match m.scalar with
  | none => .ok none
  | some d => (secretBytes d).map some

def setPrivate (m : Material P) (data : Argument) : Except Failure (Material P) :=
  (data.ensureBytes "private").map fun bytes => { m with scalar := some (Bytes.toNat bytes) }

def publicPoint (backend : Backend P) (m : Material P) : Option (Nat × Nat) :=
  m.point.map backend.coordinates

def getPublic (backend : Backend P) (m : Material P) : Option Bytes :=
  m.point.map (fun point => backend.format point m.compressed)

def setPublic (backend : Backend P) (m : Material P) (data : Argument) :
    Except Failure (Material P) :=
  match ensureFramed data with
  | .error e => .error e
  | .ok bytes =>
    match backend.parse? bytes with
    | none => .error (.invalidPoint .unreadable)
    | some point =>
      .ok { m with point := some point, compressed := bytes.length == compressedSize }

def setCompressed (m : Material P) (value : Argument) : Except Failure (Material P) :=
  value.truth.map fun compressed => { m with compressed := compressed }

def regenerate (backend : Backend P) (m : Material P) : Except Failure (Material P) :=
  match m.scalar with
  | none => .error (.precondition .regenerateNoPrivate)
  | some d =>
    if isValidScalar d then
      match backend.ofScalar d with
      | .error text => .error (.precondition (.regenerateRefused text))
      | .ok point => .ok { m with point := some point }
    else .error (.precondition .regenerateOutOfRange)

def toDer (backend : Backend P) (m : Material P) : Except Failure (Option Bytes) :=
  match m.scalar, m.point with
  | some d, some point => do
    let secret ← secretBytes d
    let der ← EcPrivateKey.encode Curve.secp256k1 secret (backend.format point m.compressed)
    .ok (some der)
  | _, _ => .ok none

def sign (backend : Backend P) (m : Material P) (digest : Argument) : Except Failure Bytes :=
  match m.scalar with
  | none => .error (.precondition .noPrivate)
  | some d =>
    match ensureDigest digest with
    | .error e => .error e
    | .ok digest =>
      if d < 256 ^ scalarSize ∧ backend.admits d = true then
        match backend.sign d digest with
        | .error text => .error (.signing (.refused text))
        | .ok signature => .ok signature
      else .error (.signing .scalarRefused)

def verify (backend : Backend P) (m : Material P) (digest signature : Argument) :
    Except Failure VerifyResult :=
  match m.point with
  | none => .error (.precondition .noPublic)
  | some point => do
    let digest ← ensureDigest digest
    let signature ← ensureSignature signature
    Signature.verifyDigest backend point digest signature

def describe (backend : Backend P) (m : Material P) : String :=
  "Key(private=" ++ Key.truthName m.scalar.isSome ++ ", public="
    ++ Key.shownPublic (m.getPublic backend) ++ ")"

/-- Nothing but the export form. -/
def close (m : Material P) : Material P := ⟨none, none, m.compressed⟩

end Material

/-! ## Keys and their material -/

namespace Key

variable {backend : Backend P} {k : Key P} {v : Vault}

/-- A key without a private half has no scalar, and one with a live one has the number in it. -/
theorem material_cases (hk : k.Live v) :
    (k.secret = none ∧ (k.material v).scalar = none)
      ∨ ∃ h buffer, k.secret = some h ∧ v.get h = .live buffer
          ∧ (k.material v).scalar = some (Bytes.toNat buffer) := by
  cases hs : k.secret with
  | none => exact .inl ⟨rfl, by rw [material, hs]; rfl⟩
  | some h =>
      obtain ⟨buffer, hv⟩ := hk.exists_get hs
      refine .inr ⟨h, buffer, rfl, hv, ?_⟩
      rw [material, hs, Option.bind_some, hv]
      rfl

theorem isSome_scalar (hk : k.Live v) : (k.material v).scalar.isSome = k.hasPrivate := by
  rcases material_cases hk with ⟨hs, hm⟩ | ⟨h, buffer, hs, -, hm⟩
  · simp only [hm, hasPrivate, hs, Option.isSome_none]
  · simp only [hm, hasPrivate, hs, Option.isSome_some]

theorem toBytes_eq_secretBytes {h : Nat} {buffer : Bytes} (hv : v.get h = .live buffer) :
    (v.get h).toBytes scalarSize = Material.secretBytes (Bytes.toNat buffer) := by
  rw [hv, SecretScalar.toBytes_live]
  rfl

theorem getPrivate_eq (hk : k.Live v) : k.getPrivate v = (k.material v).getPrivate := by
  rcases material_cases hk with ⟨hs, hm⟩ | ⟨h, buffer, hs, hv, hm⟩
  · rw [getPrivate, Material.getPrivate, hs, hm]
  · rw [getPrivate, Material.getPrivate, hs, hm]
    dsimp only
    rw [toBytes_eq_secretBytes hv]

theorem toDer_eq (hk : k.Live v) : k.toDer backend v = (k.material v).toDer backend := by
  have hpoint : (k.material v).point = k.point := rfl
  have hform : (k.material v).compressed = k.compressed := rfl
  rcases material_cases hk with ⟨hs, hm⟩ | ⟨h, buffer, hs, hv, hm⟩
  · rw [toDer, Material.toDer, hs, hm]
  · rw [toDer, Material.toDer, hs, hm, hpoint, hform]
    cases k.point with
    | none => rfl
    | some point =>
        dsimp only
        rw [toBytes_eq_secretBytes hv]

theorem sign_eq (hk : k.Live v) (digest : Argument) :
    (k.sign backend digest v).1 = (k.material v).sign backend digest := by
  rcases material_cases hk with ⟨hs, hm⟩ | ⟨h, buffer, hs, hv, hm⟩
  · rw [sign, Material.sign, hs, hm]
  · have hcopy : (v.get h).copy = .ok (.live buffer) := by rw [hv]; rfl
    rw [sign, Material.sign, hs, hm]
    dsimp only
    cases ensureDigest digest with
    | error e => rfl
    | ok bytes =>
        dsimp only
        rw [hcopy]
        dsimp only
        rw [Vault.put_eq]
        dsimp only
        rw [Vault.get_put_length, SecretScalar.toBytes_live]
        by_cases hd : Bytes.toNat buffer < 256 ^ scalarSize
        · -- The copy is read back as the number, so the backend is asked about that.
          rw [if_pos hd]
          dsimp only
          rw [Bytes.toNat_ofNat hd]
          by_cases hadmits : backend.admits (Bytes.toNat buffer) = true
          · rw [if_pos hadmits, if_pos ⟨hd, hadmits⟩]
            cases backend.sign (Bytes.toNat buffer) bytes with
            | error text => rfl
            | ok signature => rfl
          · rw [if_neg hadmits, if_neg fun h => hadmits h.2]
        · rw [if_neg hd, if_neg fun h => hd h.1]

theorem describe_eq (hk : k.Live v) : k.describe backend = (k.material v).describe backend := by
  rw [describe, Material.describe, isSome_scalar hk]
  rfl

/-! ## Changed keys and their material -/

/-- The material of the key that comes of an operation, in the vault that it leaves behind. -/
def outcomeMaterial (o : Outcome (Key P)) : Except Failure (Material P) :=
  o.1.map (material o.2)

theorem setPrivate_eq (hk : k.Live v) (data : Argument) :
    outcomeMaterial (k.setPrivate data v) = (k.material v).setPrivate data := by
  rw [setPrivate, Material.setPrivate]
  cases data.ensureBytes "private" with
  | error e => rfl
  | ok bytes =>
      have hne : k.secret ≠ some v.cells.length := fun hs =>
        Nat.lt_irrefl _ (Vault.lt_length_of_live (hk _ hs))
      have hcell : ((v.put (.live bytes)).2.wipe? k.secret).get v.cells.length
          = .live bytes := by
        rw [Vault.get_wipe?, if_neg hne, Vault.get_put_length]
      show Except.ok (material ((v.put (.live bytes)).2.wipe? k.secret)
        { k with secret := some v.cells.length }) = _
      rw [material, Option.bind_some, hcell]
      rfl

theorem setPublic_eq (data : Argument) (v : Vault) :
    outcomeMaterial (k.setPublic backend data, v) = (k.material v).setPublic backend data := by
  rw [outcomeMaterial, setPublic, Material.setPublic]
  cases ensureFramed data with
  | error e => rfl
  | ok bytes =>
      dsimp only
      cases backend.parse? bytes with
      | none => rfl
      | some point => rfl

theorem setCompressed_eq (value : Argument) (v : Vault) :
    outcomeMaterial (k.setCompressed value, v) = (k.material v).setCompressed value := by
  rw [outcomeMaterial, setCompressed, Material.setCompressed]
  cases value.truth with
  | error e => rfl
  | ok compressed => rfl

theorem regenerate_eq (hk : k.Live v) :
    outcomeMaterial (k.regenerate backend v) = (k.material v).regenerate backend := by
  rcases material_cases hk with ⟨hs, hm⟩ | ⟨h, buffer, hs, hv, hm⟩
  · rw [regenerate, Material.regenerate, hs, hm]
    rfl
  · have hcopy : (v.get h).copy = .ok (.live buffer) := by rw [hv]; rfl
    have hvalue : (SecretScalar.live buffer).value = .ok (Bytes.toNat buffer) := rfl
    rw [regenerate, Material.regenerate, hs, hm]
    dsimp only
    rw [hcopy]
    dsimp only
    rw [Vault.put_eq]
    dsimp only
    rw [hvalue]
    dsimp only
    split
    · next hvalid =>
      have hd := isValidScalar_natCast.mp hvalid
      rw [toBytes_of_get (Vault.get_put_length v _) hd.2]
      dsimp only
      rw [SecretScalar.toNat_ofNat_scalarSize hd.2]
      cases backend.ofScalar (Bytes.toNat buffer) with
      | error text => rfl
      | ok point =>
          have hlt : h < v.cells.length := Vault.lt_length_of_live (by rw [hv]; rfl)
          have hcell : ((v.put (.live buffer)).2.wipe h).get v.cells.length = .live buffer := by
            rw [Vault.get_wipe_of_ne _ hlt.ne, Vault.get_put_length]
          show Except.ok (material ((v.put (.live buffer)).2.wipe h)
            { k with secret := some v.cells.length, point := some point })
            = .ok ⟨some (Bytes.toNat buffer), some point, k.compressed⟩
          rw [material, Option.bind_some, hcell]
          rfl
    · rfl

end Key

end SecpKey
