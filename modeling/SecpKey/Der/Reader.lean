/-
  SecpKey.Der.Reader

  Prefix readers for the DER elements of keys and signatures.  A reader takes one
  element off the front and hands the rest back; what follows the element is the
  caller's business.  Each reader checks its own set of faults, in the order of the
  `if`s below: a bit string, for one, is not checked against the end of the input.
-/
import SecpKey.Der.Fault

namespace SecpKey.Der

/-- Takes one element off the front of the input. -/
abbrev Reader (α : Type) := Bytes → Except Fault (α × Bytes)

/-! ## Tag and length -/

/-- The input behind the identifier byte of an element of type `tag`. -/
def expect (tag : Tag) : Bytes → Except Fault Bytes
  | [] => .error (.missing tag)
  | b :: rest => if b = tag.byte then .ok rest else .error (.wrongTag tag b)

/-- A definite length in its only DER form: one byte below 128, else as few bytes as
hold the value. -/
def readLength : Reader Nat
  | [] => .error .lengthMissing
  | b :: rest =>
    if b < 0x80 then .ok (b.toNat, rest)
    else if b.toNat - 0x80 = 0 then .error .lengthOfLengthZero
    else if rest.length < b.toNat - 0x80 then .error .lengthOfLengthOverrun
    -- A digit of zero in front, or a value that the short form holds.
    else if rest.headD 0 = 0 ∨ (b.toNat - 0x80 = 1 ∧ rest.headD 0 < 0x80) then
      .error .lengthNotMinimal
    else .ok (Bytes.toNat (rest.take (b.toNat - 0x80)), rest.drop (b.toNat - 0x80))

/-- The contents of an element whose identifier byte is already taken. -/
def readContents (tag : Tag) : Reader Bytes := fun input => do
  let (length, rest) ← readLength input
  if rest.length < length then .error (.overrun tag)
  else .ok (rest.take length, rest.drop length)

/-- The contents of one element of type `tag`. -/
def readElement (tag : Tag) : Reader Bytes := fun input => do
  readContents tag (← expect tag input)

/-! ## Elements -/

def readSequence : Reader Bytes := readElement .sequence

def readOctetString : Reader Bytes := readElement .octetString

/-- The contents of the optional field `number`, when the input starts with it. -/
def readField? (number : Nat) : Reader (Option Bytes) := fun input =>
  if input.head? = some (Tag.field number).byte then do
    let (contents, rest) ← readElement (.field number) input
    .ok (some contents, rest)
  else .ok (none, input)

/-- The value of integer contents: at least one byte, no sign bit, no padding that the
sign bit does not need. -/
def integerValue : Bytes → Except Fault Nat
  | [] => .error .integerEmpty
  | b :: rest =>
    if 0x80 ≤ b then .error .integerNegative
    else if b = 0 ∧ rest ≠ [] ∧ rest.headD 0 < 0x80 then .error .integerPadded
    else .ok (Bytes.toNat (b :: rest))

/-- A non-negative integer. -/
def readInteger : Reader Nat := fun input => do
  let (contents, rest) ← readElement .integer input
  .ok (← integerValue contents, rest)

/-- The base-128 numbers of object contents.  `pending` is the value of the digits of a
number whose last digit is still to come. -/
def arcNumbers : Option Nat → Bytes → Except Fault (List Nat)
  | none, [] => .ok []
  | some _, [] => .error .arcUnfinished
  | pending, b :: rest =>
    -- A number that starts with a digit of zero.
    if pending = none ∧ b = 0x80 then .error .arcNotMinimal
    else if b < 0x80 then do
      let numbers ← arcNumbers none rest
      .ok ((pending.getD 0 * 128 + b.toNat) :: numbers)
    else arcNumbers (some (pending.getD 0 * 128 + (b.toNat - 0x80))) rest

/-- The first two arcs share one number. -/
def splitFirst : List Nat → List Nat
  | [] => []
  | n :: rest => if n < 80 then n / 40 :: n % 40 :: rest else 2 :: (n - 80) :: rest

/-- The arcs of an object identifier.  Contents cut off by the end of the input are told
apart from contents that are missing altogether. -/
def readObject : Reader (List Nat) := fun input => do
  let (length, rest) ← readLength (← expect .object input)
  if rest.take length = [] then .error .objectEmpty
  else if rest.length < length then .error (.overrun .object)
  else .ok (splitFirst (← arcNumbers none (rest.take length)), rest.drop length)

/-- The payload of a bit string without unused bits.  A declared length past the end
takes what is there. -/
def readBitString : Reader Bytes := fun input => do
  let (length, rest) ← readLength (← expect .bitString input)
  if length = 0 then .error .bitStringEmpty
  else
    match rest.take length with
    | [] => .error .unusedBitsMissing
    | unused :: payload =>
      if 7 < unused then .error .unusedBitsTooMany
      else if unused ≠ 0 then .error .unusedBitsUnexpected
      else .ok (payload, rest.drop length)

end SecpKey.Der
