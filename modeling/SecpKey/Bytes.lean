/-
  SecpKey.Bytes

  Byte strings and the two integer encodings every other module rests on:
  `Bytes.toNat` reads big-endian digits, `Bytes.ofNat` writes exactly `width` of
  them.  `encodeInt` is the checked form for arbitrary integers, and `byteLength`
  is the width that a value needs.  `encodeWithin` refuses in addition what a machine
  cannot hold; `encodeWithin_eq` says that it changes nothing else.
-/

namespace SecpKey

/-- A byte string, first byte first. -/
abbrev Bytes := List UInt8

namespace Bytes

/-! ## Big-endian numbers -/

/-- The value of `b` read as big-endian base-256 digits; the empty string is zero. -/
def toNat (b : Bytes) : Nat := b.foldl (fun acc x => acc * 256 + x.toNat) 0

/-- The low `width` base-256 digits of `value`, put in front of `tail`. -/
def digitsBefore : Nat → Nat → Bytes → Bytes
  | 0, _, tail => tail
  | width + 1, value, tail => digitsBefore width (value / 256) (UInt8.ofNat value :: tail)

/-- The low `width` base-256 digits of `value`, most significant first. -/
def ofNat (width value : Nat) : Bytes := digitsBefore width value []

/-- The least number of bytes that holds `value`: none for zero. -/
def byteLength (value : Nat) : Nat := if value = 0 then 0 else value.log2 / 8 + 1

/-- The shortest big-endian form of `value`, with at least one byte. -/
def ofNatMinimal (value : Nat) : Bytes := ofNat (max (byteLength value) 1) value

/-- `b` with zero bytes in front until it has `width` bytes; longer strings stay as they are. -/
def padLeft (width : Nat) (b : Bytes) : Bytes := List.replicate (width - b.length) 0 ++ b

@[simp] theorem digitsBefore_length (width value : Nat) (tail : Bytes) :
    (digitsBefore width value tail).length = width + tail.length := by
  induction width generalizing value tail with
  | zero => simp [digitsBefore]
  | succ width ih => simp [digitsBefore, ih]; omega

@[simp] theorem ofNat_length (width value : Nat) : (ofNat width value).length = width := by
  simp [ofNat]

@[simp] theorem toNat_nil : toNat [] = 0 := rfl

/-! ## Hexadecimal text -/

/-- The lower-case digit of a value below sixteen. -/
def hexDigit (n : Nat) : Char :=
  if n < 10 then Char.ofNat (48 + n) else Char.ofNat (87 + n)

/-- The two digits of one byte, in front of `rest`. -/
def hexByte (b : UInt8) (rest : List Char) : List Char :=
  hexDigit (b.toNat / 16) :: hexDigit (b.toNat % 16) :: rest

/-- Two lower-case digits for each byte. -/
def toHex (b : Bytes) : String := String.ofList (b.foldr hexByte [])

/-- The hexadecimal text of `b`, with `0x` in front when `marked`. -/
def toHexText (b : Bytes) (marked : Bool) : String :=
  if marked then "0x" ++ toHex b else toHex b

end Bytes

/-! ## Checked fixed-width encoding -/

/-- Why an integer has no encoding of the wanted width. -/
inductive WidthFault where
  /-- The width does not fit an index. -/
  | unindexable
  | negativeWidth
  /-- No byte string may be as long. -/
  | oversized
  /-- There is not as much memory. -/
  | exhausted
  | negativeValue
  | tooLarge
  deriving DecidableEq, Repr

/-- The text reported for a width fault; running out of memory is reported without one. -/
def WidthFault.message : WidthFault → String
  | .unindexable => "length argument does not fit an index"
  | .negativeWidth => "length argument must be non-negative"
  | .oversized => "byte string is too large"
  | .exhausted => ""
  | .negativeValue => "can't convert negative int to unsigned"
  | .tooLarge => "int too big to convert"

/-- The number of bytes that the absolute value of `value` needs. -/
def byteLength (value : Int) : Nat := Bytes.byteLength value.natAbs

/-- `value` as exactly `width` big-endian bytes.  A negative width is reported first,
then a negative value, then a value that does not fit. -/
def encodeInt (value width : Int) : Except WidthFault Bytes :=
  if width < 0 then .error .negativeWidth
  else if value < 0 then .error .negativeValue
  else if byteLength value ≤ width.toNat then .ok (Bytes.ofNat width.toNat value.toNat)
  else .error .tooLarge

/-! ## What a machine can hold -/

/-- Indices are below this, the 63rd power of two. -/
def indexLimit : Int := 0x8000000000000000

/-- Byte strings are below this: what comes with one has to fit an index too. -/
def sizeLimit : Int := indexLimit - 33

/-- The memory of a machine: the byte strings that it holds are those below `limit`. -/
structure Memory where
  limit : Int
  nonneg : 0 ≤ limit
  le_sizeLimit : limit ≤ sizeLimit
  deriving DecidableEq, Repr

/-- A memory that holds every byte string there may be. -/
def Memory.full : Memory := ⟨sizeLimit, by decide, Int.le_refl _⟩

/-- Whether there can be a byte string of this width, before anything is put into it. -/
def admitWidth (memory : Memory) (width : Int) : Except WidthFault Unit :=
  if indexLimit ≤ width ∨ width < -indexLimit then .error .unindexable
  else if width < 0 then .error .negativeWidth
  else if sizeLimit ≤ width then .error .oversized
  else if memory.limit ≤ width then .error .exhausted
  else .ok ()

/-- `value` as exactly `width` big-endian bytes, if that many can be held. -/
def encodeWithin (memory : Memory) (value width : Int) : Except WidthFault Bytes :=
  (admitWidth memory width).bind fun _ => encodeInt value width

theorem sizeLimit_lt_indexLimit : sizeLimit < indexLimit := by decide

theorem admitWidth_eq_ok {memory : Memory} {width : Int} (h : 0 ≤ width)
    (h' : width < memory.limit) : admitWidth memory width = .ok () := by
  have hsize : width < sizeLimit := Int.lt_of_lt_of_le h' memory.le_sizeLimit
  have hindex : width < indexLimit := Int.lt_trans hsize sizeLimit_lt_indexLimit
  have hi : ¬(indexLimit ≤ width ∨ width < -indexLimit) := by omega
  rw [admitWidth, if_neg hi, if_neg (Int.not_lt.mpr h), if_neg (Int.not_le.mpr hsize),
    if_neg (Int.not_le.mpr h')]

theorem encodeWithin_eq {memory : Memory} {value width : Int} (h : 0 ≤ width)
    (h' : width < memory.limit) : encodeWithin memory value width = encodeInt value width := by
  simp [encodeWithin, admitWidth_eq_ok h h', Except.bind]

end SecpKey
