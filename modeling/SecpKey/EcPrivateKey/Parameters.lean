/-
  SecpKey.EcPrivateKey.Parameters

  The curve parameters inside a DER private key: the object identifier of a named curve,
  or explicit parameters.  `Explicit.read` keeps the numbers that `accept` compares with
  the curve; what follows the field prime, the second coefficient and the group order
  inside their sequences is not looked at.
-/
import SecpKey.Backend
import SecpKey.Der.Reader

namespace SecpKey.EcPrivateKey

/-! ## Refusals -/

/-- A DER fault inside a private key is reported as a malformed key. -/
def lift {α : Type} (x : Except Der.Fault α) : Except Failure α :=
  x.mapError (fun fault => .decode (.malformed fault))

/-- Go on if `condition` holds, else refuse the key. -/
def ensure (condition : Bool) (cause : DecodeFault) : Except Failure Unit :=
  if condition then .ok () else .error (.decode cause)

/-- The refusal `cause`, which quotes `numbers`, unless one of them is too long to quote. -/
def quoting (numbers : List Nat) (cause : DecodeFault) : DecodeFault :=
  if numbers.all (fun n => Decimal.fits n) then cause else .malformed .decimalTooLong

/-! ## Explicit parameters -/

/-- The numbers of explicit parameters. -/
structure Explicit where
  p : Nat
  a : Nat
  b : Nat
  generator : Bytes
  n : Nat
  deriving DecidableEq, Repr

/-- The only version of explicit parameters. -/
def parametersVersion : Nat := 1

/-- Read explicit parameters over a prime field. -/
def Explicit.read (parameters : Bytes) : Except Failure Explicit := do
  let (body, rest) ← lift (Der.readSequence parameters)
  ensure (rest == []) .parametersTrailing
  let (version, body) ← lift (Der.readInteger body)
  ensure (version == parametersVersion) (quoting [version] (.parametersVersion version))
  let (field, body) ← lift (Der.readSequence body)
  let (fieldType, field) ← lift (Der.readObject field)
  ensure (fieldType == primeFieldOid) .fieldUnsupported
  let (p, _) ← lift (Der.readInteger field)
  let (coefficients, body) ← lift (Der.readSequence body)
  let (a, coefficients) ← lift (Der.readOctetString coefficients)
  let (b, _) ← lift (Der.readOctetString coefficients)
  let (generator, body) ← lift (Der.readOctetString body)
  let (n, _) ← lift (Der.readInteger body)
  .ok { p := p, a := Bytes.toNat a, b := Bytes.toNat b, generator := generator, n := n }

/-- Whether the field, the coefficients and the order are those of the curve. -/
def Explicit.numbersMatch (e : Explicit) (curve : Curve) : Bool :=
  (e.p : Int) == curve.p && (e.a : Int) == curve.a && (e.b : Int) == curve.b
    && (e.n : Int) == curve.n

/-- Accept explicit parameters that describe `curve`. -/
def acceptExplicit {P : Type} (backend : Backend P) (curve : Curve) (parameters : Bytes) :
    Except Failure Unit := do
  let e ← Explicit.read parameters
  ensure (e.numbersMatch curve) .parametersDiffer
  match backend.parse? e.generator with
  | none => .error (.decode .generatorUnreadable)
  | some point =>
    let (x, y) := backend.coordinates point
    ensure (((x : Int), (y : Int)) == curve.generator) .generatorDiffers

/-! ## Named curves -/

/-- Accept the object identifier of `curve`. -/
def acceptNamed (curve : Curve) (parameters : Bytes) : Except Failure Unit := do
  let (arcs, rest) ← lift (Der.readObject parameters)
  ensure (rest == []) .oidTrailing
  ensure (arcs.map Int.ofNat == curve.oid) (quoting arcs (.oidUnsupported arcs))

/-- Accept parameters that name or describe `curve`. -/
def accept {P : Type} (backend : Backend P) (curve : Curve) (parameters : Bytes) :
    Except Failure Unit :=
  if parameters.head? = some Der.Tag.object.byte then acceptNamed curve parameters
  else acceptExplicit backend curve parameters

end SecpKey.EcPrivateKey
