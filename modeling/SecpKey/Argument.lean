/-
  SecpKey.Argument

  What a caller may pass where bytes are expected, and the checks that turn it into
  bytes.  Anything but bytes is kept with the name of its type, because that name is
  part of the report.  A view of bytes that was released passes for bytes until it is read,
  and reading it is a fault that no check reports as its own.
-/
import SecpKey.Failure

namespace SecpKey

/-- What a value without bytes looks like to a reader that takes it for bytes. -/
inductive Shape where
  /-- It counts as nothing at all. -/
  | empty
  /-- Its elements follow each other, and the first is a number or one character. -/
  | readable
  /-- It has no elements. -/
  | single
  /-- Its elements have keys instead of places. -/
  | keyed
  /-- Its first element is neither a number nor a text. -/
  | foreign (elementType : String)
  /-- Its first element is a text of this length, which is not one. -/
  | word (length : Nat)
  deriving DecidableEq, Repr

/-- A value passed where bytes are expected. -/
inductive Argument where
  | bytes (data : Bytes)
  /-- A view of bytes that was released. -/
  | released
  | absent
  | other (typeName : String) (shape : Shape)
  deriving DecidableEq, Repr

namespace Argument

/-- The type's name, as reports write it. -/
def typeName : Argument → String
  | .bytes _ => "bytes"
  | .released => "memoryview"
  | .absent => "NoneType"
  | .other typeName _ => typeName

/-- Whether the value is of a type that holds bytes. -/
def isBytesLike : Argument → Bool
  | .bytes _ | .released => true
  | _ => false

/-- The bytes of an argument that reports call `name`.  Only its type is checked before it is
read. -/
def ensureBytes (name : String) : Argument → Except Failure Bytes
  | .bytes data => .ok data
  | .released => .error (.fault .released)
  | a => .error (.invalidInput (.notBytes name a.typeName))

/-- Whether a value counts as true. -/
def truth : Argument → Except Failure Bool
  | .bytes data => .ok (!data.isEmpty)
  | .released => .error (.fault .released)
  | .absent => .ok false
  | .other _ shape => .ok (shape != .empty)

end Argument

/-- The size of a message digest. -/
def digestSize : Nat := 32

/-- A digest: bytes, exactly `digestSize` of them. -/
def ensureDigest (a : Argument) : Except Failure Bytes := do
  let data ← a.ensureBytes "hash"
  if data.length = digestSize then .ok data else .error (.invalidInput (.digestSize data.length))

/-- A signature: bytes of any length. -/
def ensureSignature (a : Argument) : Except Failure Bytes := a.ensureBytes "sig"

end SecpKey
