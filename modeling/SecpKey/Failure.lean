/-
  SecpKey.Failure

  Every way in which an operation can fail, as causes grouped by the class that a
  caller sees.  `Failure.message` holds the wording and `Failure.errorClass?` the class;
  faults outside the library's own classes have none.
-/
import SecpKey.Der.Fault
import SecpKey.Der.Writer
import SecpKey.ErrorClass

namespace SecpKey

/-! ## Causes -/

/-- An argument of the wrong type or length. -/
inductive InputFault where
  | notBytes (name typeName : String)
  | digestSize (got : Nat)
  deriving DecidableEq, Repr

/-- Bytes that are no point of the curve. -/
inductive PointFault where
  | notBytes (typeName : String)
  | size (got : Nat)
  | lead (byte : UInt8) (length : Nat)
  | unreadable
  deriving DecidableEq, Repr

/-- Key material that an operation needs and does not find. -/
inductive PreconditionFault where
  | noPrivate
  | noPublic
  | regenerateNoPrivate
  | regenerateOutOfRange
  | regenerateRefused (text : String)
  deriving DecidableEq, Repr

/-- A signature that could not be made. -/
inductive SigningFault where
  | scalarRefused
  | refused (text : String)
  deriving DecidableEq, Repr

/-- A key that could not be generated. -/
inductive RandomnessFault where
  | source (text : String)
  | refused (text : String)
  deriving DecidableEq, Repr

/-- A curve that cannot be used. -/
inductive CurveFault where
  | unusable (text : String)
  | generatorDiffers
  deriving DecidableEq, Repr

/-- Key material that has no serialized form. -/
inductive EncodeFault where
  | secretTooLarge
  | secretSize (got : Nat)
  | publicMissing
  | arcs (fault : Der.ArcFault)
  deriving DecidableEq, Repr

/-- Input that is no signature, or no private key. -/
inductive DecodeFault where
  | signature (fault : Der.Fault)
  | signatureTrailing
  | signatureExtra
  | malformed (fault : Der.Fault)
  | trailing
  | version (got : Nat)
  | oidTrailing
  | oidUnsupported (arcs : List Nat)
  | parametersTrailing
  | parametersVersion (got : Nat)
  | fieldUnsupported
  | parametersDiffer
  | generatorUnreadable
  | generatorDiffers
  | publicTrailing
  | unexpectedField
  | secretSize (got : Nat)
  | secretOutOfRange
  | secretRefused (text : String)
  | publicUnreadable
  | publicDiffers
  deriving DecidableEq, Repr

/-- A value that was taken for bytes and cannot be read as such. -/
inductive ReadFault where
  | noElements (typeName : String)
  | keyed
  /-- The first element is neither a number nor a text. -/
  | element (typeName : String)
  /-- The first element is a text of this length. -/
  | word (length : Nat)
  deriving DecidableEq, Repr

/-- A fault outside the library's classes. -/
inductive Fault where
  | width (fault : WidthFault)
  /-- A width that is no whole number. -/
  | widthInexact
  | decimalTooLong
  | zeroModulus
  | negativeInteger
  | unreadablePoint
  /-- A view of bytes that was released was read. -/
  | released
  /-- A wiped secret was used. -/
  | wiped
  /-- A secret was asked for from something that holds no bytes. -/
  | notABuffer (typeName : String)
  /-- A number of zero bytes was asked for that is negative, or beyond every memory. -/
  | negativeCount
  | countTooLarge
  /-- A sequence offered as bytes has an element that is no number, or none below 256. -/
  | elementNotNumber (typeName : String)
  | elementTooLarge
  /-- A job that needs a public point was built before there was one. -/
  | jobWithoutPoint
  /-- A job got a signature that cannot be looked at as bytes. -/
  | jobUnreadable (fault : ReadFault)
  | verifierClosed
  | poolAndWorkers
  | noWorkers
  | jobRefused
  /-- The pool that comes with the loop was shut down. -/
  | defaultPoolShut
  /-- A closed event loop was asked to run something. -/
  | loopClosed
  | cancelled
  /-- Raised by a caller's callback. -/
  | raised (text : String)
  /-- A name that stands for nothing. -/
  | unknownName (name : String)
  /-- A number that no submission has. -/
  | unknownIdent (ident : Int)
  /-- A position outside a list. -/
  | unknownPlace
  deriving DecidableEq, Repr

/-- Why an operation failed. -/
inductive Failure where
  | invalidInput (cause : InputFault)
  | invalidPoint (cause : PointFault)
  | precondition (cause : PreconditionFault)
  | signing (cause : SigningFault)
  | randomness (cause : RandomnessFault)
  | curveInit (cause : CurveFault)
  | encoding (cause : EncodeFault)
  | decode (cause : DecodeFault)
  | fault (cause : Fault)
  deriving DecidableEq, Repr

/-! ## Wording -/

/-- What the curve library says of bytes that are no point. -/
def pointRefusal : String := "The public key could not be parsed or is invalid."

def InputFault.message : InputFault → String
  | .notBytes name typeName => "Argument '" ++ name ++ "' must be bytes, got " ++ typeName
  | .digestSize got => "Argument 'hash' must be 32 bytes, got " ++ toString got

def PointFault.message : PointFault → String
  | .notBytes typeName => "Public key must be bytes, got " ++ typeName
  | .size got => "Public key must be 33 or 65 bytes, got " ++ toString got
  | .lead byte length =>
    "Invalid SEC1 prefix 0x" ++ Bytes.toHex [byte] ++ " for " ++ toString length
      ++ " byte public key"
  | .unreadable => "Invalid public key: " ++ pointRefusal

def PreconditionFault.message : PreconditionFault → String
  | .noPrivate => "Key does not have a private key set"
  | .noPublic => "Key does not have a public key set"
  | .regenerateNoPrivate => "Regeneration requires a private key"
  | .regenerateOutOfRange => "Regeneration requires a private key in [1, n-1]"
  | .regenerateRefused text => "Regeneration failed: " ++ text

def SigningFault.message : SigningFault → String
  | .scalarRefused => "Signing failed: invalid private scalar"
  | .refused text => "Signing failed: " ++ text

def RandomnessFault.message : RandomnessFault → String
  | .source text => "Error from entropy source: " ++ text
  | .refused text => "Error deriving generated public key: " ++ text

def CurveFault.message : CurveFault → String
  | .unusable text => "Error initializing secp256k1: " ++ text
  | .generatorDiffers => "Curve library generator mismatch for secp256k1"

def EncodeFault.message : EncodeFault → String
  | .secretTooLarge => "Secret too large (incorrect curve parameters?)"
  | .secretSize got => "Private key must be 32 bytes, got " ++ toString got
  | .publicMissing => "Public key is required for DER export"
  | .arcs fault => "Error encoding EC private key: " ++ fault.message

def DecodeFault.message : DecodeFault → String
  | .signature fault => "Invalid DER signature: " ++ fault.message
  | .signatureTrailing => "Invalid DER signature: trailing data"
  | .signatureExtra => "Invalid DER signature: extra data in sequence"
  | .malformed fault => "Error decoding EC private key: " ++ fault.message
  | .trailing => "Trailing data after EC private key"
  | .version got => "Unsupported EC private key version: " ++ toString got
  | .oidTrailing => "Trailing data after curve OID"
  | .oidUnsupported arcs =>
    "Unsupported curve OID: " ++ String.intercalate "." (arcs.map toString)
  | .parametersTrailing => "Trailing data after curve parameters"
  | .parametersVersion got => "Unsupported curve parameters version: " ++ toString got
  | .fieldUnsupported => "Only prime-field curves are supported"
  | .parametersDiffer => "Explicit curve parameters do not match secp256k1"
  | .generatorUnreadable => "Invalid curve generator: " ++ pointRefusal
  | .generatorDiffers => "Explicit curve generator does not match secp256k1"
  | .publicTrailing => "Trailing data after public key"
  | .unexpectedField => "Unexpected field in EC private key"
  | .secretSize got => "Invalid private key length: " ++ toString got
  | .secretOutOfRange => "Private key out of range for curve"
  | .secretRefused text => "Invalid private key: " ++ text
  | .publicUnreadable => "Invalid embedded public key: " ++ pointRefusal
  | .publicDiffers => "Embedded public key does not match private key"

def ReadFault.message : ReadFault → String
  | .noElements typeName => "a value of type " ++ typeName ++ " has no elements"
  | .keyed => "elements have keys instead of places"
  | .element typeName => "an element of type " ++ typeName ++ " is no byte"
  | .word length => "a text of length " ++ toString length ++ " is no byte"

/-- Some faults are reported without any text; what stands for nothing is its own text. -/
def Fault.message : Fault → String
  | .width fault => fault.message
  | .widthInexact => "a width is a whole number"
  | .decimalTooLong => Decimal.tooLongMessage
  | .zeroModulus => "integer modulo by zero"
  | .negativeInteger => ""
  | .unreadablePoint => pointRefusal
  | .released => "operation forbidden on released memoryview object"
  | .wiped => "Secret scalar has been wiped"
  | .notABuffer "str" => "string argument without an encoding"
  | .notABuffer typeName => "cannot convert '" ++ typeName ++ "' object to bytearray"
  | .negativeCount => "negative count"
  | .countTooLarge => "cannot fit 'int' into an index-sized integer"
  | .elementNotNumber typeName => "'" ++ typeName ++ "' object cannot be interpreted as an integer"
  | .elementTooLarge => "byte must be in range(0, 256)"
  | .jobWithoutPoint => ""
  | .jobUnreadable fault => fault.message
  | .verifierClosed => "SignatureVerifier is closed"
  | .poolAndWorkers => "Pass either max_workers or executor, not both"
  | .noWorkers => "max_workers must be greater than 0"
  | .jobRefused => "cannot schedule new futures after shutdown"
  | .defaultPoolShut => "Executor shutdown has been called"
  | .loopClosed => "Event loop is closed"
  | .cancelled => ""
  | .raised text => text
  | .unknownName name => name
  | .unknownIdent ident => toString ident
  | .unknownPlace => "list index out of range"

namespace Failure

/-- The text a failure is reported with. -/
def message : Failure → String
  | .invalidInput cause => cause.message
  | .invalidPoint cause => cause.message
  | .precondition cause => cause.message
  | .signing cause => cause.message
  | .randomness cause => cause.message
  | .curveInit cause => cause.message
  | .encoding cause => cause.message
  | .decode cause => cause.message
  | .fault cause => cause.message

/-- The class of a failure; none for a fault outside the library's classes. -/
def errorClass? : Failure → Option ErrorClass
  | .invalidInput _ => some .invalidInput
  | .invalidPoint _ => some .invalidPoint
  | .precondition _ => some .precondition
  | .signing _ => some .signing
  | .randomness _ => some .randomness
  | .curveInit _ => some .curveInit
  | .encoding _ => some .encoding
  | .decode _ => some .decode
  | .fault _ => none

/-- Whether the failure belongs to the library's own classes. -/
def isLibrary (f : Failure) : Bool := f.errorClass?.isSome

end Failure

end SecpKey
