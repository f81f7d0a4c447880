/-
  SecpKey.Curve.Binding

  Binding the curve to the library that computes on it.  The binding is tried until it
  succeeds once; a success is kept, a failure is not.
-/
import SecpKey.Curve

namespace SecpKey.Curve

/-- What is kept between attempts. -/
structure Binding where
  bound : Option Curve
  deriving DecidableEq, Repr

/-- Nothing bound yet. -/
def Binding.fresh : Binding := ⟨none⟩

/-- Check the product of one and the generator, as the computing library gives it. -/
def check (one : Except String (Int × Int)) : Except Failure Curve :=
  match one with
  | .error text => .error (.curveInit (.unusable text))
  | .ok point =>
    if point = secp256k1.generator then .ok secp256k1
    else .error (.curveInit .generatorDiffers)

/-- The bound curve, checked against `one` unless it was bound before. -/
def Binding.load (binding : Binding) (one : Except String (Int × Int)) :
    Except Failure Curve × Binding :=
  match binding.bound with
  | some curve => (.ok curve, binding)
  | none =>
    match check one with
    | .ok curve => (.ok curve, ⟨some curve⟩)
    | .error e => (.error e, binding)

end SecpKey.Curve
