namespace LuaLowering

/-! IEEE 754 double-precision numbers, kept as their sixty-four bits so that equality is equality of
bits and every finite value is an exact integer multiple of a power of two. -/

structure Binary64 where
  bits : UInt64
deriving DecidableEq, Repr

namespace Binary64

def zero : Binary64 := ⟨0⟩

def ofFloat (value : Float) : Binary64 := ⟨value.toBits⟩

def toFloat (value : Binary64) : Float := Float.ofBits value.bits

/-- The double nearest to an integer. -/
def ofInt (value : Int) : Binary64 := ofFloat (Float.ofInt value)

def isNegative (value : Binary64) : Bool := decide (0x8000000000000000 ≤ value.bits.toNat)

/-- The size of the fraction field: it has fifty-two bits. -/
def fractionSize : Nat := 0x10000000000000

def exponentField (value : Binary64) : Nat := value.bits.toNat / fractionSize % 0x800

def fractionField (value : Binary64) : Nat := value.bits.toNat % fractionSize

def isFinite (value : Binary64) : Bool := decide (value.exponentField < 2047)

def isNaN (value : Binary64) : Bool := !value.isFinite && decide (0 < value.fractionField)

/-- A finite number has the size `significand * 2 ^ exponent`. -/
def significand (value : Binary64) : Nat :=
  if value.exponentField = 0 then value.fractionField else value.fractionField + fractionSize

def exponent (value : Binary64) : Int :=
  if value.exponentField = 0 then -1074 else (value.exponentField : Int) - 1075

/-- The size of a finite number with no fractional part. -/
def integerSize? (value : Binary64) : Option Nat :=
  let scale := Nat.pow 2 value.exponent.natAbs
  if !value.isFinite then none
  else if 0 ≤ value.exponent then some (value.significand * scale)
  else if value.significand % scale = 0 then some (value.significand / scale)
  else none

end Binary64

/-! Decimal numbers, and the shortest decimal that reads back as a given double. -/

/-- The number `coefficient * 10 ^ exponent`. -/
structure Decimal where
  coefficient : Nat
  exponent : Int
deriving DecidableEq, Repr

namespace Decimal

/-- The decimal digits of a natural number, without leading zeros. -/
def digits (n : Nat) : List Char := Nat.toDigits 10 n

/-- Digits and at most one point, however large or small the number is. -/
def positional (decimal : Decimal) : List Char :=
  let digits := digits decimal.coefficient
  let places := decimal.exponent.natAbs
  if 0 ≤ decimal.exponent then digits ++ List.replicate places '0'
  else if places < digits.length then
    digits.take (digits.length - places) ++ '.' :: digits.drop (digits.length - places)
  else '0' :: '.' :: List.replicate (places - digits.length) '0' ++ digits

end Decimal

namespace Binary64

/-- The numbers that round to one double, in quarters of the unit `2 ^ exponent`: they lie between
`low` and `high`, and the two ends belong to them iff `closed`. -/
structure Rounding where
  low : Nat
  value : Nat
  high : Nat
  exponent : Int
  closed : Bool

/-- Half a unit to either side, but only a quarter below a power of two.  A half-way point rounds to
the even neighbour. -/
def rounding (value : Binary64) : Rounding :=
  let m := value.significand
  let narrow := value.fractionField = 0 ∧ 1 < value.exponentField
  { low := if narrow then 4 * m - 1 else 4 * m - 2
    value := 4 * m
    high := 4 * m + 2
    exponent := value.exponent - 2
    closed := m % 2 = 0 }

namespace Rounding

/-- The point of the grid of multiples of `10 ^ place` that stands for the double: of the two grid
points around it the one that rounds to it, of two such points the nearer, and the upper one of two
equally near. -/
def gridPoint? (rounding : Rounding) (place : Int) : Option Nat :=
  let scale := Nat.pow 2 rounding.exponent.toNat * Nat.pow 10 (-place).toNat
  let unit := Nat.pow 10 place.toNat * Nat.pow 2 (-rounding.exponent).toNat
  let value := rounding.value * scale
  let rounds := fun (point : Nat) =>
    if rounding.closed then
      rounding.low * scale ≤ point * unit && point * unit ≤ rounding.high * scale
    else rounding.low * scale < point * unit && point * unit < rounding.high * scale
  let below := value / unit
  match rounds below, rounds (below + 1) with
  | true, true =>
      some (if (below + 1) * unit - value ≤ value - below * unit then below + 1 else below)
  | true, false => some below
  | false, true => some (below + 1)
  | false, false => none

/-- Searches the grids from `place` downwards, coarsest first. -/
def search (rounding : Rounding) : Nat → Int → Decimal
  | 0, place => ⟨0, place⟩
  | grids + 1, place =>
      match rounding.gridPoint? place with
      | some point => ⟨point, place⟩
      | none => rounding.search grids (place - 1)

end Rounding

/-- The size of a finite double in the fewest digits that read back.  Every double lies below
`10 ^ 309`, and the numbers that round to one double span more than `10 ^ -324`. -/
def shortest (value : Binary64) : Decimal :=
  if value.significand = 0 then ⟨0, 0⟩ else value.rounding.search 640 309

end Binary64

end LuaLowering
