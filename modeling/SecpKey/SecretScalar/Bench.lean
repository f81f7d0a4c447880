/-
  SecpKey.SecretScalar.Bench

  Containers, the names that stand for them, and the operations on them one at a time.
  Every container that was made keeps its number; a name stands for the container that was
  put under it last, and no two names stand for the same one.  A step that fails changes
  nothing, except that a block wipes its container however it ends.
-/
import SecpKey.Slots
import SecpKey.Vault

namespace SecpKey.SecretScalar

/-- One operation on the containers. -/
inductive Step where
  | new (slot : String) (filling : Filling)
  | ofInt (slot : String) (value : Int)
  | copy (slot target : String)
  | value (slot : String)
  | naturalSize (slot : String)
  | toWidth (slot : String) (width : Width)
  | wipe (slot : String)
  | describe (slot : String)
  | equals (slot other : String)
  /-- Compare with something that is no container. -/
  | equalsForeign (slot : String)
  /-- Read the scalar inside a block that wipes the container at its end. -/
  | useOnce (slot : String)
  deriving DecidableEq, Repr

/-- What an operation answers. -/
inductive Answer where
  | done
  | number (n : Nat)
  | bytes (b : Bytes)
  | truth (b : Bool)
  | text (s : String)
  /-- The scalar that was read inside a block. -/
  | used (n : Nat)
  deriving DecidableEq, Repr

/-- Containers by number, the names for some of them, and the memory of the machine. -/
structure Bench where
  memory : Memory
  vault : Vault
  names : Slots Nat
  deriving DecidableEq, Repr

namespace Bench

def empty (memory : Memory) : Bench := ⟨memory, .empty, .empty⟩

/-- The number of the container under a name. -/
def number? (bench : Bench) (slot : String) : Option Nat := bench.names.get? slot

/-- The containers under names, in the order in which the names were first used. -/
def entries (bench : Bench) : List (String × SecretScalar) :=
  bench.names.entries.map fun (slot, h) => (slot, bench.vault.get h)

/-- The bench with a new container under a name. -/
def add (bench : Bench) (slot : String) (s : SecretScalar) : Bench :=
  { bench with vault := (bench.vault.put s).2, names := bench.names.put slot (bench.vault.put s).1 }

/-- The bench after container `h` is wiped. -/
def wipe (bench : Bench) (h : Nat) : Bench := { bench with vault := bench.vault.wipe h }

/-- Do `act` with the number of the container under a name. -/
def withSlot (bench : Bench) (slot : String) (act : Nat → Except Failure Answer × Bench) :
    Except Failure Answer × Bench :=
  match bench.number? slot with
  | none => (.error (.fault (.unknownName slot)), bench)
  | some h => act h

/-- Read the container under a name. -/
def look (bench : Bench) (slot : String) (read : SecretScalar → Except Failure Answer) :
    Except Failure Answer × Bench :=
  bench.withSlot slot fun h => (read (bench.vault.get h), bench)

/-- Put a new container under a name, if one could be made. -/
def store (bench : Bench) (slot : String) (made : Except Failure SecretScalar) :
    Except Failure Answer × Bench :=
  match made with
  | .error e => (.error e, bench)
  | .ok s => (.ok .done, bench.add slot s)

/-- Carry out one operation. -/
def perform (bench : Bench) : Step → Except Failure Answer × Bench
  | .new slot filling => bench.store slot (SecretScalar.ofFilling bench.memory filling)
  | .ofInt slot value => bench.store slot (SecretScalar.ofInt value)
  | .copy slot target => bench.withSlot slot fun h => bench.store target (bench.vault.get h).copy
  | .value slot => bench.look slot fun s => s.value.map .number
  | .naturalSize slot => bench.look slot fun s => s.naturalSize.map .number
  | .toWidth slot width => bench.look slot fun s => (s.toWidth bench.memory width).map .bytes
  | .wipe slot => bench.withSlot slot fun h => (.ok .done, bench.wipe h)
  | .describe slot => bench.look slot fun s => .ok (.text s.describe)
  | .equals slot other => bench.withSlot slot fun h =>
    bench.look other fun t => .ok (.truth ((bench.vault.get h).equals t))
  | .equalsForeign slot => bench.look slot fun _ => .ok (.truth false)
  | .useOnce slot => bench.withSlot slot fun h =>
    ((bench.vault.get h).value.map .used, bench.wipe h)

end Bench

end SecpKey.SecretScalar
