/-
  SecpKey.Decimal

  Decimal text of integers.  Text of more than `Decimal.limit` digits is never
  written: `text?` answers nothing for such a number, so that a report about a huge
  number stays short.
-/

namespace SecpKey.Decimal

/-- The greatest number of digits that is written out. -/
def limit : Nat := 4300

/-- Whether `value` has at most `limit` digits. -/
def fits (value : Int) : Bool := value.natAbs < Nat.pow 10 limit

/-- The decimal text of `value`, if it has at most `limit` digits. -/
def text? (value : Int) : Option String := if fits value then some (toString value) else none

/-- The text reported in place of a number with too many digits. -/
def tooLongMessage : String :=
  "Exceeds the limit (4300 digits) for integer string conversion; "
    ++ "use sys.set_int_max_str_digits() to increase the limit"

end SecpKey.Decimal
