/-
  SecpKey.Curve.Sec1

  The SEC1 forms of a point.  `isFramed` looks at length and first byte only and
  `ensureFramed` reports what is wrong with them; `Point.parse?` is the full reader, and
  `Point.format` writes the two forms that this library emits.
-/
import SecpKey.Argument
import SecpKey.Curve.Point

namespace SecpKey

/-! ## Framing -/

def compressedSize : Nat := 33

def uncompressedSize : Nat := 65

/-- The first bytes of a compressed point. -/
def compressedLeads : List UInt8 := [0x02, 0x03]

/-- The first bytes of a point with both coordinates; `6` and `7` also give the parity. -/
def uncompressedLeads : List UInt8 := [0x04, 0x06, 0x07]

/-- Whether length and first byte fit together.  The point itself is not looked at. -/
def isFramed (key : Bytes) : Bool :=
  if key.length = compressedSize then compressedLeads.contains (key.headD 0)
  else if key.length = uncompressedSize then uncompressedLeads.contains (key.headD 0)
  else false

/-- Framed bytes, or a report of what is wrong: type, then length, then first byte. -/
def ensureFramed : Argument → Except Failure Bytes
  | .bytes key =>
    if key.length ≠ compressedSize ∧ key.length ≠ uncompressedSize then
      .error (.invalidPoint (.size key.length))
    else if isFramed key then .ok key
    else .error (.invalidPoint (.lead (key.headD 0) key.length))
  | .released => .error (.fault .released)
  | a => .error (.invalidPoint (.notBytes a.typeName))

/-! ## Points -/

namespace Point

/-- The point of a compressed form behind its first byte. -/
def parseCompressed? (odd : Bool) (body : Bytes) : Option Point :=
  if body.length = 32 then lift? (Bytes.toNat body) odd else none

/-- The point of both coordinates; `parity` is what the first byte says of the second one. -/
def parsePair? (parity : Option Bool) (body : Bytes) : Option Point :=
  let P : Point := ⟨Bytes.toNat (body.take 32), Bytes.toNat (body.drop 32)⟩
  if body.length = 64 && P.onCurve && (parity.all (· == (P.y % 2 == 1))) then some P else none

/-- The point that `key` is a SEC1 form of: compressed, uncompressed or hybrid. -/
def parse? : Bytes → Option Point
  | [] => none
  | lead :: body =>
    if lead = 0x02 then parseCompressed? false body
    else if lead = 0x03 then parseCompressed? true body
    else if lead = 0x04 then parsePair? none body
    else if lead = 0x06 then parsePair? (some false) body
    else if lead = 0x07 then parsePair? (some true) body
    else none

/-- The compressed or the uncompressed form. -/
def format (P : Point) (compressed : Bool) : Bytes :=
  if compressed then (if P.y % 2 = 0 then 0x02 else 0x03) :: Bytes.ofNat 32 P.x
  else 0x04 :: (Bytes.ofNat 32 P.x ++ Bytes.ofNat 32 P.y)

end Point

end SecpKey
