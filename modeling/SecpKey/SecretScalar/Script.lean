/-
  SecpKey.SecretScalar.Script

  What callers do with containers: operations one after another, and blocks that wipe the
  container they were entered with when they are left, be it at their end or by a failure.
  What a script comes to is a sequence of changes, and `Bench.changes` lists them.
-/
import SecpKey.SecretScalar.Bench

namespace SecpKey.SecretScalar

/-- A sequence of operations, with blocks and caught failures. -/
inductive Script where
  | done
  /-- An operation; if it fails, nothing of the rest is done. -/
  | step (step : Step) (rest : Script)
  /-- A failure of the caller's own. -/
  | raise (text : String)
  /-- A part whose failures are caught. -/
  | attempt (body rest : Script)
  /-- A part that wipes the container under a name when it is left. -/
  | block (slot : String) (body rest : Script)
  deriving DecidableEq, Repr

/-- What changes containers: an operation, or the end of a block that was entered with
container `h`, whatever stands under its name by then. -/
inductive Change where
  | step (step : Step)
  | left (h : Nat)
  deriving DecidableEq, Repr

namespace Bench

/-- Carry out a script, up to the failure that ends it, if there is one. -/
def exec (bench : Bench) : Script → Except Failure Unit × Bench
  | .done => (.ok (), bench)
  | .step step rest =>
    match bench.perform step with
    | (.error e, next) => (.error e, next)
    | (.ok _, next) => next.exec rest
  | .raise text => (.error (.fault (.raised text)), bench)
  | .attempt body rest => (bench.exec body).2.exec rest
  | .block slot body rest =>
    match bench.number? slot with
    | none => (.error (.fault (.unknownName slot)), bench)
    | some h =>
      match bench.exec body with
      | (.error e, next) => (.error e, next.wipe h)
      | (.ok _, next) => (next.wipe h).exec rest

/-- The bench after one change. -/
def apply (bench : Bench) : Change → Bench
  | .step step => (bench.perform step).2
  | .left h => bench.wipe h

/-- The bench after a sequence of changes. -/
def replay (bench : Bench) (changes : List Change) : Bench := changes.foldl apply bench

/-- The changes that a script comes to. -/
def changes (bench : Bench) : Script → List Change
  | .done => []
  | .step step rest =>
    .step step :: match bench.perform step with
      | (.error _, _) => []
      | (.ok _, next) => next.changes rest
  | .raise _ => []
  | .attempt body rest => bench.changes body ++ (bench.exec body).2.changes rest
  | .block slot body rest =>
    match bench.number? slot with
    | none => []
    | some h =>
      bench.changes body ++ .left h :: match bench.exec body with
        | (.error _, _) => []
        | (.ok _, next) => (next.wipe h).changes rest

end Bench

end SecpKey.SecretScalar
