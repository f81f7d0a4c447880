/-
  SecpKey.ErrorClass

  The classes of failure a caller can tell apart.  They form a tree: `ancestors` lists
  the classes that include a given one, nearest first.  `Report` is a failure as a
  caller sees it, with an optional code in front of its text.
-/
import SecpKey.Decimal

namespace SecpKey

inductive ErrorClass where
  /-- Every failure of the library. -/
  | library
  | crypto
  | curveInit
  | randomness
  | signing
  /-- The operation needs key material that the key does not hold. -/
  | precondition
  /-- An argument is not acceptable. -/
  | validation
  /-- An argument has the wrong type or length. -/
  | invalidInput
  /-- Bytes are no point of the curve. -/
  | invalidPoint
  /-- Reading or writing a serialized form failed. -/
  | serialization
  /-- DER input cannot be read. -/
  | decode
  /-- Key material cannot be written. -/
  | encoding
  deriving DecidableEq, Repr

namespace ErrorClass

/-- All classes, each behind the class that includes it. -/
def all : List ErrorClass :=
  [.library, .crypto, .curveInit, .randomness, .signing, .precondition, .validation,
   .invalidInput, .invalidPoint, .serialization, .decode, .encoding]

/-- The classes that include this one, nearest first. -/
def ancestors : ErrorClass → List ErrorClass
  | .library => []
  | .crypto | .precondition | .validation | .serialization => [.library]
  | .curveInit | .randomness | .signing => [.crypto, .library]
  | .invalidInput => [.validation, .library]
  | .invalidPoint => [.invalidInput, .validation, .library]
  | .decode | .encoding => [.serialization, .library]

/-- Whether a handler for `handler` also handles this class. -/
def isA (c handler : ErrorClass) : Bool := c == handler || c.ancestors.contains handler

end ErrorClass

/-- A failure as it is handed to a caller. -/
structure Report (α : Type) where
  errorClass : ErrorClass
  message : String
  code : Option Int
  data : Option α

/-- The text of a report: the code in brackets goes in front unless it is absent or zero.
There is none when the code has too many decimal digits. -/
def Report.text? {α : Type} (r : Report α) : Option String :=
  match r.code with
  | none => some r.message
  | some code =>
    if code = 0 then some r.message
    else (Decimal.text? code).map (fun digits => "[" ++ digits ++ "] " ++ r.message)

end SecpKey
