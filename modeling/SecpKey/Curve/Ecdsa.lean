/-
  SecpKey.Curve.Ecdsa

  ECDSA on secp256k1 over 32-byte digests.  Nonces come from HMAC-SHA256 as in RFC 6979,
  so that two digests with one residue modulo the group order have one signature;
  signatures are given in their low-S form.
-/
import SecpKey.Curve.Point
import SecpKey.Hash.Hmac

namespace SecpKey.Ecdsa

/-- A digest as a scalar. -/
def messageScalar (digest : Bytes) : Nat := Bytes.toNat digest % groupOrder

/-- The lower of `s` and `n - s`. -/
def lowS (s : Nat) : Nat := if groupOrder / 2 < s then groupOrder - s else s

/-! ## Nonces -/

/-- The state of the nonce generator. -/
structure NonceState where
  key : Bytes
  value : Bytes
  deriving DecidableEq, Repr

namespace NonceState

/-- Mix `input` into the state behind the separator byte. -/
def update (s : NonceState) (separator : UInt8) (input : Bytes) : NonceState :=
  let key := Hmac.sha256 s.key (s.value ++ separator :: input)
  ⟨key, Hmac.sha256 key s.value⟩

/-- The state seeded with the private scalar `d` and the message scalar `z`. -/
def seed (d z : Nat) : NonceState :=
  let start : NonceState := ⟨List.replicate 32 0x00, List.replicate 32 0x01⟩
  let input := Bytes.ofNat scalarSize d ++ Bytes.ofNat scalarSize z
  (start.update 0x00 input).update 0x01 input

/-- Step to the next candidate, which is then the value of the state. -/
def next (s : NonceState) : NonceState := ⟨s.key, Hmac.sha256 s.key s.value⟩

/-- The state after a candidate was turned down. -/
def retry (s : NonceState) : NonceState := s.update 0x00 []

end NonceState

/-! ## Signing -/

/-- The signature of message scalar `z` under scalar `d` with nonce `k`; nothing when the
nonce is out of range or one of the numbers comes out as zero. -/
def signWith? (d z k : Nat) : Option (Nat × Nat) :=
  if k = 0 ∨ groupOrder ≤ k then none
  else do
    let R ← Point.smul? k .generator
    let r := R.x % groupOrder
    let s := Modular.inverse groupOrder k * (z + r * d) % groupOrder
    if r = 0 ∨ s = 0 then none else some (r, lowS s)

def signFrom? (d z : Nat) : Nat → NonceState → Option (Nat × Nat)
  | 0, _ => none
  | attempts + 1, s =>
    let s := s.next
    match signWith? d z (Bytes.toNat s.value) with
    | some signature => some signature
    | none => signFrom? d z attempts s.retry

/-- More candidates than are ever turned down in a row. -/
def nonceAttempts : Nat := 64

/-- The deterministic signature of the message scalar `z` under the scalar `d`. -/
def sign? (d z : Nat) : Option (Nat × Nat) :=
  signFrom? d z nonceAttempts (.seed d z)

/-! ## Verification -/

/-- Whether `(r, s)` with `1 ≤ r, s < n` satisfies the ECDSA equation for message scalar
`z` under the public point `Q`. -/
def verify (Q : Point) (z r s : Nat) : Bool :=
  let w := Modular.inverse groupOrder s
  match Point.combine? (z * w % groupOrder) .generator (r * w % groupOrder) Q with
  | none => false
  | some R => R.x % groupOrder == r

end SecpKey.Ecdsa
