/-
  SecpKey.Width

  Widths as callers ask for them.  A width is a whole number or a measured one; a measured
  one can be compared with a size, but nothing can have it.
-/
import SecpKey.Failure

namespace SecpKey

/-- The number of bytes that an encoding is asked to have. -/
inductive Width where
  | whole (n : Int)
  /-- A number that was not given as a whole one.  `floor` is the greatest whole number up
  to it; without one, no size exceeds it. -/
  | measured (floor : Option Int)
  deriving DecidableEq, Repr

/-- Whether `size` bytes are more than the width. -/
def Width.exceededBy (size : Nat) : Width → Bool
  | .whole n => decide (n < (size : Int))
  | .measured floor => floor.any (fun n => decide (n < (size : Int)))

/-- `value` in a width that was asked for. -/
def Width.encode (memory : Memory) (value : Int) : Width → Except Failure Bytes
  | .whole n => (encodeWithin memory value n).mapError (fun fault => .fault (.width fault))
  | .measured _ => .error (.fault .widthInexact)

end SecpKey
