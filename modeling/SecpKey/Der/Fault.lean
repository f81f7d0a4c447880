/-
  SecpKey.Der.Fault

  What can be wrong with a DER element, one constructor for each thing a reader
  checks, and the text each is reported with.
-/
import SecpKey.Decimal
import SecpKey.Bytes

namespace SecpKey.Der

/-- The element types that occur in keys and signatures. -/
inductive Tag where
  | integer
  | bitString
  | octetString
  | object
  | sequence
  /-- A constructed, context-specific field such as `[0]`. -/
  | field (number : Nat)
  deriving DecidableEq, Repr

namespace Tag

/-- The identifier byte. -/
def byte : Tag → UInt8
  | .integer => 0x02
  | .bitString => 0x03
  | .octetString => 0x04
  | .object => 0x06
  | .sequence => 0x30
  | .field number => 0xA0 + UInt8.ofNat number

/-- How a report names the type it wanted. -/
def wanted : Tag → String
  | .integer => "type 'integer' (0x02)"
  | .bitString => "bitstring (0x03)"
  | .octetString => "type 'octetstring' (0x04)"
  | .object => "type 'object' (0x06)"
  | .sequence => "type 'sequence' (0x30)"
  | .field number => "field (0x" ++ Bytes.toHex [(Tag.field number).byte] ++ ")"

end Tag

/-- Why bytes are not the DER element that was asked for. -/
inductive Fault where
  | lengthMissing
  | lengthOfLengthZero
  | lengthOfLengthOverrun
  | lengthNotMinimal
  /-- Nothing at all where an element of this type should start. -/
  | missing (tag : Tag)
  | wrongTag (wanted : Tag) (got : UInt8)
  /-- The declared length goes past the end. -/
  | overrun (tag : Tag)
  | integerEmpty
  | integerNegative
  | integerPadded
  | objectEmpty
  | arcNotMinimal
  | arcUnfinished
  | bitStringEmpty
  /-- The count of unused bits is cut off by the end of the input. -/
  | unusedBitsMissing
  | unusedBitsTooMany
  | unusedBitsUnexpected
  /-- A number that would have to be reported has too many decimal digits. -/
  | decimalTooLong
  deriving DecidableEq, Repr

/-- The text each fault is reported with. -/
def Fault.message : Fault → String
  | .lengthMissing => "Empty string can't encode valid length value"
  | .lengthOfLengthZero => "Invalid length encoding, length of length is 0"
  | .lengthOfLengthOverrun => "Length of length longer than provided buffer"
  | .lengthNotMinimal => "Not minimal encoding of length"
  | .missing .sequence => "Empty string does not encode a sequence"
  | .missing .integer => "Empty string is an invalid encoding of an integer"
  | .missing .object => "Empty string does not encode an object identifier"
  | .missing .bitString => "Empty string does not encode a bitstring"
  | .missing _ => "index out of range"
  | .wrongTag wanted got => "wanted " ++ wanted.wanted ++ ", got 0x" ++ Bytes.toHex [got]
  | .overrun .integer => "Length longer than provided buffer"
  | .overrun .object => "Length of object identifier longer than the provided buffer"
  | .overrun _ => "Length longer than the provided buffer"
  | .integerEmpty => "0-byte long encoding of integer"
  | .integerNegative => "Negative integers are not supported"
  | .integerPadded => "Invalid encoding of integer, unnecessary zero padding bytes"
  | .objectEmpty => "Empty object identifier"
  | .arcNotMinimal => "Non minimal encoding of OID subidentifier"
  | .arcUnfinished => "ran out of length bytes"
  | .bitStringEmpty => "Invalid length of bit string, can't be 0"
  | .unusedBitsMissing => "index out of range"
  | .unusedBitsTooMany => "Invalid encoding of unused bits"
  | .unusedBitsUnexpected => "Unexpected number of unused bits"
  | .decimalTooLong => Decimal.tooLongMessage

end SecpKey.Der
