/-
  SecpKey.Keyring

  Any number of keys over one vault.  `Keyring.perform` carries out one operation of any
  kind on the keys, which are named by number; keys are never removed.  What a failed
  operation leaves behind is the vault alone.
-/
import SecpKey.Key

namespace SecpKey

/-- All keys that were ever made, and their containers. -/
structure Keyring (P : Type) where
  vault : Vault
  keys : List (Key P)
  deriving DecidableEq, Repr

/-- An operation on keys. -/
inductive KeyOp where
  | new
  | generate (draws : List Draw)
  | ofDer (data : Argument)
  | getPrivate (key : Nat)
  | setPrivate (key : Nat) (data : Argument)
  | getPublic (key : Nat)
  | setPublic (key : Nat) (data : Argument)
  | publicPoint (key : Nat)
  | setCompressed (key : Nat) (value : Argument)
  | regenerate (key : Nat)
  | toDer (key : Nat)
  | sign (key : Nat) (digest : Argument)
  | verify (key : Nat) (digest signature : Argument)
  | equals (key other : Nat)
  | describe (key : Nat)
  | close (key : Nat)
  /-- Read the private half inside a block that closes the key at its end. -/
  | useOnce (key : Nat)
  deriving DecidableEq, Repr

/-- What an operation answers. -/
inductive KeyAnswer where
  | done
  /-- A new key, and the draws that were left. -/
  | made (key : Nat) (left : List Draw)
  | bytes (data : Bytes)
  | bytes? (data : Option Bytes)
  | point? (point : Option (Nat × Nat))
  | result (r : VerifyResult)
  | truth (b : Bool)
  | text (s : String)
  deriving DecidableEq, Repr

namespace Keyring

variable {P : Type}

/-- No keys and no containers. -/
def empty : Keyring P := ⟨.empty, []⟩

/-- A new key, with its number. -/
def add (ring : Keyring P) (k : Key P) : Nat × Keyring P :=
  (ring.keys.length, { ring with keys := ring.keys ++ [k] })

/-- Replace a key. -/
def put (ring : Keyring P) (key : Nat) (k : Key P) : Keyring P :=
  { ring with keys := ring.keys.set key k }

/-- The public point of a key; none for a number not given out. -/
def point? (ring : Keyring P) (key : Nat) : Option P := (ring.keys[key]?).bind (·.point)

/-- An operation that makes a key. -/
def making (ring : Keyring P) (outcome : Outcome (Key P × List Draw)) :
    Except Failure KeyAnswer × Keyring P :=
  let ring := { ring with vault := outcome.2 }
  match outcome.1 with
  | .error e => (.error e, ring)
  | .ok (k, left) =>
    let (key, ring) := ring.add k
    (.ok (.made key left), ring)

/-- An operation that changes a key. -/
def changing (ring : Keyring P) (key : Nat) (outcome : Outcome (Key P)) :
    Except Failure KeyAnswer × Keyring P :=
  let ring := { ring with vault := outcome.2 }
  match outcome.1 with
  | .error e => (.error e, ring)
  | .ok k => (.ok .done, ring.put key k)

/-- An operation that only looks. -/
def looking (ring : Keyring P) (answer : Except Failure KeyAnswer) :
    Except Failure KeyAnswer × Keyring P := (answer, ring)

/-- Do `act` with a key; a number not given out stands for nothing. -/
def withKey (ring : Keyring P) (key : Nat)
    (act : Key P → Except Failure KeyAnswer × Keyring P) :
    Except Failure KeyAnswer × Keyring P :=
  match ring.keys[key]? with
  | none => (.error (.fault (.unknownName (toString key))), ring)
  | some k => act k

/-- Carry out an operation. -/
def perform (backend : Backend P) (ring : Keyring P) :
    KeyOp → Except Failure KeyAnswer × Keyring P
  | .new => ring.making (.ok (.empty, []), ring.vault)
  | .generate draws => ring.making (Key.generate backend draws ring.vault)
  | .ofDer data =>
    let (made, vault) := Key.ofDer backend data ring.vault
    ring.making (made.map (fun k => (k, [])), vault)
  | .getPrivate key => ring.withKey key fun k =>
    ring.looking ((k.getPrivate ring.vault).map .bytes?)
  | .setPrivate key data => ring.withKey key fun k =>
    ring.changing key (k.setPrivate data ring.vault)
  | .getPublic key => ring.withKey key fun k =>
    ring.looking (.ok (.bytes? (k.getPublic backend)))
  | .setPublic key data => ring.withKey key fun k =>
    ring.changing key (k.setPublic backend data, ring.vault)
  | .publicPoint key => ring.withKey key fun k =>
    ring.looking (.ok (.point? (k.publicPoint backend)))
  | .setCompressed key value => ring.withKey key fun k =>
    ring.changing key (k.setCompressed value, ring.vault)
  | .regenerate key => ring.withKey key fun k =>
    ring.changing key (k.regenerate backend ring.vault)
  | .toDer key => ring.withKey key fun k =>
    ring.looking ((k.toDer backend ring.vault).map .bytes?)
  | .sign key digest => ring.withKey key fun k =>
    let (signature, vault) := k.sign backend digest ring.vault
    (signature.map .bytes, { ring with vault := vault })
  | .verify key digest signature => ring.withKey key fun k =>
    ring.looking ((k.verify backend digest signature).map .result)
  | .equals key other => ring.withKey key fun k => ring.withKey other fun l =>
    ring.looking (.ok (.truth (k.equals backend ring.vault l)))
  | .describe key => ring.withKey key fun k =>
    ring.looking (.ok (.text (k.describe backend)))
  | .close key => ring.withKey key fun k =>
    let (k, vault) := k.close ring.vault
    ring.changing key (.ok k, vault)
  | .useOnce key => ring.withKey key fun k =>
    let answer := (k.getPrivate ring.vault).map KeyAnswer.bytes?
    let (k, vault) := k.close ring.vault
    (answer, (ring.changing key (.ok k, vault)).2)

end Keyring

end SecpKey
