/-
  SecpKey.VerifyResult

  The three outcomes of a verification.  `indeterminate` means that the check could not
  run, which is neither a yes nor a no; only `valid` counts as a yes.
-/

namespace SecpKey

/-- The outcome of verifying a signature. -/
inductive VerifyResult where
  | valid
  | invalid
  | indeterminate
  deriving DecidableEq, Repr

namespace VerifyResult

/-- The number that stands for an outcome. -/
def code : VerifyResult → Int
  | .valid => 1
  | .invalid => 0
  | .indeterminate => -1

/-- The outcome that a number stands for; a number without a meaning, or something that
is no whole number, is indeterminate. -/
def ofCode? : Option Int → VerifyResult
  | some 1 => .valid
  | some 0 => .invalid
  | _ => .indeterminate

/-- Whether the signature was found valid. -/
def isValid (r : VerifyResult) : Bool := r == .valid

/-- The printed name. -/
def name : VerifyResult → String
  | .valid => "VALID"
  | .invalid => "INVALID"
  | .indeterminate => "INDETERMINATE"

theorem ofCode?_code (r : VerifyResult) : ofCode? (some r.code) = r := by cases r <;> rfl

end VerifyResult

end SecpKey
