/-
  SecpKey.Key

  A secp256k1 key: an optional private scalar, kept in a container of the vault, an
  optional public point, and the form in which the point is exported.  Operations take
  the vault and give it back, so that every container they make or wipe is accounted
  for, also when they fail.  A failed operation gives back no key: the caller's key stays
  as it was.
-/
import SecpKey.EcPrivateKey
import SecpKey.Signature
import SecpKey.Curve.Sec1
import SecpKey.Vault

namespace SecpKey

/-- What an entropy source gives for one request. -/
inductive Draw where
  | candidate (data : Bytes)
  | failure (text : String)
  deriving DecidableEq, Repr

/-- What an exhausted source fails with. -/
def exhausted : String := "entropy exhausted"

/-- A key.  The scalar is named by the number of its container. -/
structure Key (P : Type) where
  secret : Option Nat
  point : Option P
  compressed : Bool
  deriving DecidableEq, Repr

/-- The outcome of an operation, and the vault after it. -/
abbrev Outcome (α : Type) := Except Failure α × Vault

namespace Key

variable {P : Type}

def empty : Key P := ⟨none, none, false⟩

def hasPrivate (k : Key P) : Bool := k.secret.isSome

def hasPublic (k : Key P) : Bool := k.point.isSome

/-! ## Making keys -/

/-- A key with a fresh scalar: the first candidate in `[1, n-1]`, as it was drawn.
Candidates that are turned down are wiped.  Also gives the draws that are left. -/
def generate (backend : Backend P) : List Draw → Vault → Outcome (Key P × List Draw)
  | [], vault => (.error (.randomness (.source exhausted)), vault)
  | .failure text :: _, vault => (.error (.randomness (.source text)), vault)
  | .candidate data :: rest, vault =>
    let (h, vault) := vault.put (.live data)
    if isValidScalar (Bytes.toNat data) then
      -- A scalar in range has at most 32 bytes, so this width is never refused.
      match (vault.get h).toBytes scalarSize with
      | .error e => (.error e, vault)
      | .ok secret =>
        match backend.ofScalar (Bytes.toNat secret) with
        | .error text => (.error (.randomness (.refused text)), vault.wipe h)
        | .ok point => (.ok (⟨some h, some point, false⟩, rest), vault)
    else generate backend rest (vault.wipe h)

/-- The public point of a decoded key and its export form: the embedded point, which has
to be the multiple `expected` of the generator, or else that multiple itself. -/
def decodedPoint (backend : Backend P) (expected : P) :
    Option Bytes → Except Failure (P × Bool)
  | none => .ok (expected, false)
  | some publicKey =>
    match backend.parse? publicKey with
    | none => .error (.decode .publicUnreadable)
    | some point =>
      if backend.coordinates point = backend.coordinates expected then
        .ok (point, publicKey.length == compressedSize)
      else .error (.decode .publicDiffers)

/-- The key of a DER private key.  Its parts have to agree. -/
def ofDer (backend : Backend P) (data : Argument) (vault : Vault) : Outcome (Key P) :=
  match data.ensureBytes "der" with
  | .error e => (.error e, vault)
  | .ok data =>
    match EcPrivateKey.decode backend Curve.secp256k1 data with
    | .error e => (.error e, vault)
    | .ok decoded =>
      -- Padded to 32 bytes, so the width is never refused; any later refusal wipes it.
      let (h, vault) := vault.put (.live decoded.secret)
      match (vault.get h).toBytes scalarSize with
      | .error e => (.error e, vault)
      | .ok secret =>
        match backend.ofScalar (Bytes.toNat secret) with
        | .error text => (.error (.decode (.secretRefused text)), vault.wipe h)
        | .ok expected =>
          match decodedPoint backend expected decoded.publicKey with
          | .error e => (.error e, vault.wipe h)
          | .ok (point, compressed) => (.ok ⟨some h, some point, compressed⟩, vault)

/-! ## The private half -/

def getPrivate (k : Key P) (vault : Vault) : Except Failure (Option Bytes) :=
  match k.secret with
  | none => .ok none
  | some h => ((vault.get h).toBytes scalarSize).map some

/-- Put another scalar in place; the point stays as it is. -/
def setPrivate (k : Key P) (data : Argument) (vault : Vault) : Outcome (Key P) :=
  match data.ensureBytes "private" with
  | .error e => (.error e, vault)
  | .ok data =>
    let (h, vault) := vault.put (.live data)
    (.ok { k with secret := some h }, vault.wipe? k.secret)

/-! ## The public half -/

def publicPoint (backend : Backend P) (k : Key P) : Option (Nat × Nat) :=
  k.point.map backend.coordinates

def getPublic (backend : Backend P) (k : Key P) : Option Bytes :=
  k.point.map (fun point => backend.format point k.compressed)

/-- Put another point in place and export it in the form it came in. -/
def setPublic (backend : Backend P) (k : Key P) (data : Argument) : Except Failure (Key P) :=
  match ensureFramed data with
  | .error e => .error e
  | .ok bytes =>
    match backend.parse? bytes with
    | none => .error (.invalidPoint .unreadable)
    | some point =>
      .ok { k with point := some point, compressed := bytes.length == compressedSize }

/-- Export the point in the compressed form if `value` counts as true, and else in the other. -/
def setCompressed (k : Key P) (value : Argument) : Except Failure (Key P) :=
  value.truth.map fun compressed => { k with compressed := compressed }

/-- Derive the point from the scalar.  The scalar moves to a new container, and the old
one is wiped once the point is there. -/
def regenerate (backend : Backend P) (k : Key P) (vault : Vault) : Outcome (Key P) :=
  match k.secret with
  | none => (.error (.precondition .regenerateNoPrivate), vault)
  | some old =>
    match (vault.get old).copy with
    | .error e => (.error e, vault)
    | .ok fresh =>
      let (h, vault) := vault.put fresh
      match fresh.value with
      | .error e => (.error e, vault)
      | .ok scalar =>
        if isValidScalar scalar then
          match (vault.get h).toBytes scalarSize with
          | .error e => (.error e, vault)
          | .ok secret =>
            match backend.ofScalar (Bytes.toNat secret) with
            | .error text => (.error (.precondition (.regenerateRefused text)), vault.wipe h)
            -- Nothing can fail any more, so the old container may go.
            | .ok point => (.ok { k with secret := some h, point := some point }, vault.wipe old)
        else (.error (.precondition .regenerateOutOfRange), vault.wipe h)

/-! ## Export -/

/-- The DER form; there is none unless both halves are there. -/
def toDer (backend : Backend P) (k : Key P) (vault : Vault) : Except Failure (Option Bytes) :=
  match k.secret, k.point with
  | some h, some point => do
    let secret ← (vault.get h).toBytes scalarSize
    let der ← EcPrivateKey.encode Curve.secp256k1 secret (backend.format point k.compressed)
    .ok (some der)
  | _, _ => .ok none

/-! ## Signatures -/

/-- Sign a digest.  The backend gets a copy of the scalar, which is wiped at once. -/
def sign (backend : Backend P) (k : Key P) (digest : Argument) (vault : Vault) : Outcome Bytes :=
  match k.secret with
  | none => (.error (.precondition .noPrivate), vault)
  | some h =>
    match ensureDigest digest with
    | .error e => (.error e, vault)
    | .ok digest =>
      match (vault.get h).copy with
      | .error e => (.error e, vault)
      | .ok fresh =>
        let (c, vault) := vault.put fresh
        let secret := (vault.get c).toBytes scalarSize
        -- Wiped before anything is made of the bytes, so no outcome leaves it behind.
        let vault := vault.wipe c
        match secret with
        | .error _ => (.error (.signing .scalarRefused), vault)
        | .ok secret =>
          if backend.admits (Bytes.toNat secret) then
            match backend.sign (Bytes.toNat secret) digest with
            | .error text => (.error (.signing (.refused text)), vault)
            | .ok signature => (.ok signature, vault)
          else (.error (.signing .scalarRefused), vault)

def verify (backend : Backend P) (k : Key P) (digest signature : Argument) :
    Except Failure VerifyResult :=
  match k.point with
  | none => .error (.precondition .noPublic)
  | some point => do
    let digest ← ensureDigest digest
    let signature ← ensureSignature signature
    Signature.verifyDigest backend point digest signature

/-! ## The rest -/

/-- Whether the secrets of two keys agree; only the first one's presence is looked at. -/
def secretsAgree (vault : Vault) : Option Nat → Option Nat → Bool
  | none, _ => true
  | some h, some h' => (vault.get h).equals (vault.get h')
  | some _, none => false

/-- Whether two keys hold the same scalar and the same point. -/
def equals (backend : Backend P) (vault : Vault) (k l : Key P) : Bool :=
  k.hasPrivate == l.hasPrivate && k.hasPublic == l.hasPublic
    && secretsAgree vault k.secret l.secret
    && k.publicPoint backend == l.publicPoint backend

/-- Wipe the scalar and drop all material; the export form stays. -/
def close (k : Key P) (vault : Vault) : Key P × Vault :=
  ({ k with secret := none, point := none }, vault.wipe? k.secret)

def truthName (b : Bool) : String := if b then "True" else "False"

/-- How a text shows a public key: its first twelve hexadecimal digits. -/
def shownPublic : Option Bytes → String
  | some (b :: rest) => String.ofList ((Bytes.toHex (b :: rest)).toList.take 12) ++ "..."
  | _ => "None"

/-- A text with the public half and without the private one. -/
def describe (backend : Backend P) (k : Key P) : String :=
  "Key(private=" ++ truthName k.hasPrivate ++ ", public="
    ++ shownPublic (k.getPublic backend) ++ ")"

end Key

end SecpKey
