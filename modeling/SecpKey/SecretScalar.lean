/-
  SecpKey.SecretScalar

  A container for a private scalar in big-endian bytes.  `Filling` is what one can be
  made from: bytes, a count of zero bytes, or a sequence of numbers.  A container is live
  until it is wiped, and a wiped one stays wiped: reading it is a fault, and it equals
  nothing, not even itself.  `toWidth` writes it in any width as far as a machine holds that
  many bytes, and `toBytes` in a width that every machine holds.
-/
import SecpKey.Curve
import SecpKey.Width

namespace SecpKey

inductive SecretScalar where
  | live (buffer : Bytes)
  | wiped
  deriving DecidableEq, Repr

namespace SecretScalar

/-! ## Filling -/

/-- One element of a sequence that is offered as bytes. -/
inductive Element where
  | number (value : Int)
  | other (typeName : String)
  deriving DecidableEq, Repr

/-- What a container can be asked to hold. -/
inductive Filling where
  | bytes (data : Bytes)
  /-- A view of bytes that was released, and refuses to be read. -/
  | released
  /-- Zero bytes, as many as counted. -/
  | zeros (count : Int)
  | elements (list : List Element)
  | other (typeName : String)
  deriving DecidableEq, Repr

def Element.byte : Element → Except Failure UInt8
  | .number value =>
    if 0 ≤ value ∧ value < 256 then .ok (UInt8.ofNat value.toNat)
    else .error (.fault .elementTooLarge)
  | .other typeName => .error (.fault (.elementNotNumber typeName))

/-- The bytes to hold; a sequence is refused at its first element that is no byte. -/
def Filling.read (memory : Memory) : Filling → Except Failure Bytes
  | .bytes data => .ok data
  | .released => .error (.fault .released)
  | .zeros count =>
    if indexLimit ≤ count ∨ count < -indexLimit then .error (.fault .countTooLarge)
    else if count < 0 then .error (.fault .negativeCount)
    else if memory.limit ≤ count then .error (.fault (.width .exhausted))
    else .ok (List.replicate count.toNat 0)
  | .elements list => list.mapM Element.byte
  | .other typeName => .error (.fault (.notABuffer typeName))

/-! ## Containers -/

/-- A container for what it is filled with. -/
def ofFilling (memory : Memory) (filling : Filling) : Except Failure SecretScalar :=
  (filling.read memory).map .live

/-- A container for the shortest form of a number, of at least one byte. -/
def ofInt (value : Int) : Except Failure SecretScalar :=
  match encodeInt value (max (byteLength value) 1 : Nat) with
  | .ok data => .ok (.live data)
  | .error fault => .error (.fault (.width fault))

def isWiped : SecretScalar → Bool
  | .live _ => false
  | .wiped => true

def read : SecretScalar → Except Failure Bytes
  | .live buffer => .ok buffer
  | .wiped => .error (.fault .wiped)

def value (s : SecretScalar) : Except Failure Nat := s.read.map Bytes.toNat

/-- The number of bytes that the scalar needs. -/
def naturalSize (s : SecretScalar) : Except Failure Nat := s.value.map Bytes.byteLength

/-- The scalar in a width that was asked for. -/
def toWidth (memory : Memory) (s : SecretScalar) (width : Width) : Except Failure Bytes := do
  let v ← s.value
  if width.exceededBy (Bytes.byteLength v) then .error (.encoding .secretTooLarge)
  else width.encode memory v

/-- The scalar as exactly `length` bytes, of which there are few enough for every machine. -/
def toBytes (s : SecretScalar) (length : Nat) : Except Failure Bytes := do
  let v ← s.value
  if length < Bytes.byteLength v then .error (.encoding .secretTooLarge)
  else .ok (Bytes.ofNat length v)

/-- Another container with the same bytes. -/
def copy (s : SecretScalar) : Except Failure SecretScalar := s.read.map .live

/-- The container after its bytes are overwritten and dropped. -/
def wipe (_ : SecretScalar) : SecretScalar := .wiped

/-- Whether both containers are live and hold the same scalar. -/
def equals : SecretScalar → SecretScalar → Bool
  | .live a, .live b => Bytes.toNat a == Bytes.toNat b
  | _, _ => false

/-- A text that tells live from wiped and nothing else. -/
def describe : SecretScalar → String
  | .live _ => "SecretScalar(<set>)"
  | .wiped => "SecretScalar(<wiped>)"

/-! ## Small laws -/

@[simp] theorem isWiped_wipe (s : SecretScalar) : s.wipe.isWiped = true := rfl

theorem equals_comm (s t : SecretScalar) : s.equals t = t.equals s := by
  cases s <;> cases t <;> simp [equals, Bool.beq_comm]

theorem equals_self (s : SecretScalar) : s.equals s = !s.isWiped := by
  cases s <;> simp [equals, isWiped]

end SecretScalar

end SecpKey
