/-
  SecpKey.Der.Writer

  The DER form of the elements of keys and signatures, with minimal lengths.
-/
import SecpKey.Der.Fault

namespace SecpKey.Der

/-- The shortest form of a length. -/
def encodeLength (length : Nat) : Bytes :=
  if length < 0x80 then [UInt8.ofNat length]
  else
    let digits := Bytes.ofNatMinimal length
    UInt8.ofNat (0x80 + digits.length) :: digits

/-- An element: identifier byte, length, contents. -/
def encodeElement (tag : Tag) (contents : Bytes) : Bytes :=
  tag.byte :: (encodeLength contents.length ++ contents)

/-- The contents of a non-negative integer: a zero byte goes in front where the first
digit would read as a sign. -/
def integerContents (value : Nat) : Bytes :=
  let digits := Bytes.ofNatMinimal value
  if 0x80 ≤ digits.headD 0 then 0 :: digits else digits

def encodeInteger (value : Nat) : Bytes := encodeElement .integer (integerContents value)

def encodeOctetString (contents : Bytes) : Bytes := encodeElement .octetString contents

/-- A bit string without unused bits. -/
def encodeBitString (payload : Bytes) : Bytes := encodeElement .bitString (0 :: payload)

def encodeSequence (parts : List Bytes) : Bytes := encodeElement .sequence parts.flatten

def encodeField (number : Nat) (contents : Bytes) : Bytes := encodeElement (.field number) contents

/-! ## Object identifiers -/

/-- The base-128 digits of `value` above the last one, each with the continuation bit,
in front of `tail`. -/
def arcDigitsBefore (value : Nat) (tail : Bytes) : Bytes :=
  if h : value = 0 then tail
  else arcDigitsBefore (value / 128) (UInt8.ofNat (0x80 + value % 128) :: tail)
termination_by value
decreasing_by omega

/-- The base-128 form of one number: the continuation bit is set on all digits but the last. -/
def arcDigits (value : Nat) : Bytes :=
  arcDigitsBefore (value / 128) [UInt8.ofNat (value % 128)]

/-- Why a list of arcs has no encoding. -/
inductive ArcFault where
  /-- Fewer than the two arcs that every identifier has; how many are there. -/
  | tooFew (given : Nat)
  /-- The first two arcs cannot share one number, or an arc is negative. -/
  | outOfRange
  deriving DecidableEq, Repr

/-- The text each arc fault is reported with. -/
def ArcFault.message : ArcFault → String
  | .tooFew 0 => "encode_oid() missing 2 required positional arguments: 'first' and 'second'"
  | .tooFew _ => "encode_oid() missing 1 required positional argument: 'second'"
  | .outOfRange => ""

/-- Whether the first two arcs of an identifier can share one number. -/
def firstArcsFit (first second : Int) : Bool :=
  (0 ≤ first && first < 2 && 0 ≤ second && second ≤ 39) || (first == 2 && 0 ≤ second)

def objectContents : List Int → Except ArcFault Bytes
  | first :: second :: rest =>
    if firstArcsFit first second && rest.all (0 ≤ ·) then
      .ok (arcDigits (40 * first + second).toNat ++ rest.flatMap (fun arc => arcDigits arc.toNat))
    else .error .outOfRange
  | arcs => .error (.tooFew arcs.length)

def encodeObject (arcs : List Int) : Except ArcFault Bytes :=
  (objectContents arcs).map (encodeElement .object)

end SecpKey.Der
