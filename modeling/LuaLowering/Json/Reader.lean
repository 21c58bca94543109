import LuaLowering.Json.Basic

namespace LuaLowering.Json

/-! Reading JSON text.  The grammar is the strict one: four blanks, no comments, no trailing commas,
no raw control characters, no lone surrogates. -/

namespace Reader

def isBlank (c : Char) : Bool := c == ' ' || c == '\t' || c == '\n' || c == '\r'

def skipBlanks (input : List Char) : List Char := input.dropWhile isBlank

/-! Strings. -/

def hexValue? (c : Char) : Option Nat :=
  if c.isDigit then some (c.toNat - 48)
  else if 'a' ≤ c ∧ c ≤ 'f' then some (c.toNat - 87)
  else if 'A' ≤ c ∧ c ≤ 'F' then some (c.toNat - 55)
  else none

def codeUnit? (a b c d : Char) : Option Nat := do
  let a ← hexValue? a
  let b ← hexValue? b
  let c ← hexValue? c
  let d ← hexValue? d
  return ((a * 16 + b) * 16 + c) * 16 + d

def isLeading (unit : Nat) : Bool := 0xD800 ≤ unit && unit < 0xDC00

def isTrailing (unit : Nat) : Bool := 0xDC00 ≤ unit && unit < 0xE000

def ofSurrogates (leading trailing : Nat) : Char :=
  Char.ofNat (0x10000 + (leading - 0xD800) * 0x400 + (trailing - 0xDC00))

def shortEscape? : Char → Option Char
  | '"' => some '"'
  | '\\' => some '\\'
  | '/' => some '/'
  | 'b' => some '\x08'
  | 'f' => some '\x0c'
  | 'n' => some '\n'
  | 'r' => some '\r'
  | 't' => some '\t'
  | _ => none

/-- What follows an opening quote: the text up to the closing quote, and the rest. -/
def stringBody? : List Char → List Char → Option (String × List Char)
  | [], _ => none
  | '"' :: rest, done => some (String.ofList done.reverse, rest)
  | '\\' :: 'u' :: a :: b :: c :: d :: rest, done =>
      match codeUnit? a b c d with
      | none => none
      | some unit =>
          if isTrailing unit then none
          else if isLeading unit then
            match rest with
            | '\\' :: 'u' :: e :: f :: g :: h :: rest =>
                match codeUnit? e f g h with
                | none => none
                | some trailing =>
                    if isTrailing trailing then
                      stringBody? rest (ofSurrogates unit trailing :: done)
                    else none
            | _ => none
          else stringBody? rest (Char.ofNat unit :: done)
  | '\\' :: c :: rest, done =>
      match shortEscape? c with
      | none => none
      | some escaped => stringBody? rest (escaped :: done)
  | c :: rest, done =>
      if c = '\\' ∨ c.toNat < 0x20 then none else stringBody? rest (c :: done)

/-! Numbers.  Digits are gathered into a significand of sixty-four bits and a power of ten. -/

def significandBound : Nat := 0x10000000000000000

def digitValue (c : Char) : Nat := c.toNat - 48

/-- The significand of the digits before the point, and how many digits no longer fitted. -/
def wholeDigits : List Char → Nat → Nat × Nat
  | [], significand => (significand, 0)
  | c :: rest, significand =>
      let next := significand * 10 + digitValue c
      if next < significandBound then wholeDigits rest next else (significand, rest.length + 1)

/-- The significand after the digits behind the point, and how many of them it took in. -/
def fractionDigits : List Char → Nat → Nat → Nat × Nat
  | [], significand, taken => (significand, taken)
  | c :: rest, significand, taken =>
      let next := significand * 10 + digitValue c
      if next < significandBound then fractionDigits rest next (taken + 1)
      else (significand, taken)

def powerOfTen (n : Nat) : Float := Float.ofScientific 1 false n

def largestPower : Nat := 308

/-- Multiplies or divides by a power of ten, one rounding a step.  A result beyond the doubles is
refused; a double is zero after three divisions by the largest power. -/
def scaleBy : Nat → Float → Int → Option Float
  | 0, value, _ => some value
  | steps + 1, value, exponent =>
      if exponent.natAbs ≤ largestPower then
        if 0 ≤ exponent then
          let scaled := value * powerOfTen exponent.toNat
          if scaled.isInf then none else some scaled
        else some (value / powerOfTen exponent.natAbs)
      else if value == 0 then some value
      else if 0 ≤ exponent then none
      else scaleBy steps (value / powerOfTen largestPower) (exponent + largestPower)

def real? (negative : Bool) (significand : Nat) (exponent : Int) : Option Json :=
  (scaleBy 4 significand.toUInt64.toFloat exponent).map fun value =>
    .real (.ofFloat (if negative then -value else value))

/-- A number without point and exponent is whole if it fits sixty-four bits; minus zero is not. -/
def whole? (negative : Bool) (significand dropped : Nat) : Option Json :=
  if dropped ≠ 0 then real? negative significand dropped
  else if !negative then some (.int significand)
  else if 0 < significand ∧ significand ≤ 0x8000000000000000 then some (.int (-(significand : Int)))
  else real? negative significand 0

def exponentBound : Nat := 0x80000000

/-- The size of an exponent, unless its digits overflow thirty-one bits. -/
def exponentSize? : List Char → Nat → Option Nat
  | [], size => some size
  | c :: rest, size =>
      let next := size * 10 + digitValue c
      if next < exponentBound then exponentSize? rest next else none

/-- A number with the exponent digits `digits`.  An exponent that overflows leaves only zero. -/
def scaled? (negative : Bool) (significand : Nat) (shift : Int) (down : Bool)
    (digits : List Char) : Option Json :=
  match exponentSize? digits 0 with
  | some size => real? negative significand (if down then shift - size else shift + size)
  | none => if significand ≠ 0 ∧ !down then none else real? negative 0 0

def takeDigits (input : List Char) : List Char × List Char :=
  (input.takeWhile Char.isDigit, input.dropWhile Char.isDigit)

/-- The exponent part, if there is one: whether it points downwards, its digits, and the rest. -/
def exponentPart? (input : List Char) : Option (Option (Bool × List Char) × List Char) :=
  match input with
  | c :: rest =>
      if c = 'e' ∨ c = 'E' then
        let (down, rest) := match rest with
          | '+' :: rest => (false, rest)
          | '-' :: rest => (true, rest)
          | _ => (false, rest)
        let (digits, rest) := takeDigits rest
        if digits.isEmpty then none else some (some (down, digits), rest)
      else some (none, input)
  | [] => some (none, [])

def number? (input : List Char) : Option (Json × List Char) := do
  let (negative, input) := match input with
    | '-' :: rest => (true, rest)
    | _ => (false, input)
  let (whole, rest) := takeDigits input
  if whole.isEmpty ∨ (whole.head? = some '0' ∧ 1 < whole.length) then failure
  let (significand, dropped) := wholeDigits whole 0
  match rest with
  | '.' :: rest =>
      let (fraction, rest) := takeDigits rest
      if fraction.isEmpty then failure
      let (significand, taken) := fractionDigits fraction significand 0
      let shift : Int := (dropped : Int) - taken
      let (exponent, rest) ← exponentPart? rest
      let value ← match exponent with
        | none => real? negative significand shift
        | some (down, digits) => scaled? negative significand shift down digits
      return (value, rest)
  | _ =>
      let (exponent, rest) ← exponentPart? rest
      let value ← match exponent with
        | none => whole? negative significand dropped
        | some (down, digits) => scaled? negative significand dropped down digits
      return (value, rest)

/-! Values.  `room` is how many more arrays and objects may be opened. -/

mutual

def value? (fuel room : Nat) (input : List Char) : Option (Json × List Char) :=
  match fuel with
  | 0 => none
  | fuel + 1 =>
      match skipBlanks input with
      | 'n' :: 'u' :: 'l' :: 'l' :: rest => some (.null, rest)
      | 't' :: 'r' :: 'u' :: 'e' :: rest => some (.bool true, rest)
      | 'f' :: 'a' :: 'l' :: 's' :: 'e' :: rest => some (.bool false, rest)
      | '"' :: rest => (stringBody? rest []).map fun (text, rest) => (.str text, rest)
      | '[' :: rest =>
          if room = 0 then none
          else match skipBlanks rest with
            | ']' :: rest => some (.arr [], rest)
            | rest => items? fuel (room - 1) rest []
      | '\x7b' :: rest =>
          if room = 0 then none
          else match skipBlanks rest with
            | '\x7d' :: rest => some (.obj [], rest)
            | rest => members? fuel (room - 1) rest []
      | input => number? input

def items? (fuel room : Nat) (input : List Char) (done : List Json) :
    Option (Json × List Char) :=
  match fuel with
  | 0 => none
  | fuel + 1 =>
      match value? fuel room input with
      | none => none
      | some (item, rest) =>
          match skipBlanks rest with
          | ',' :: rest => items? fuel room rest (item :: done)
          | ']' :: rest => some (.arr (item :: done).reverse, rest)
          | _ => none

/-- A repeated key keeps its first place and its last value. -/
def members? (fuel room : Nat) (input : List Char) (done : Entries String Json) :
    Option (Json × List Char) :=
  match fuel with
  | 0 => none
  | fuel + 1 =>
      match skipBlanks input with
      | '"' :: rest =>
          match stringBody? rest [] with
          | none => none
          | some (key, rest) =>
              match skipBlanks rest with
              | ':' :: rest =>
                  match value? fuel room rest with
                  | none => none
                  | some (value, rest) =>
                      match skipBlanks rest with
                      | ',' :: rest => members? fuel room rest (Entries.insert done key value)
                      | '\x7d' :: rest => some (.obj (Entries.insert done key value), rest)
                      | _ => none
              | _ => none
      | _ => none

end

end Reader

/-- Reads one value that fills the text, with at most `nesting` arrays and objects open at once.
Every second call of the reader consumes a character, which bounds the calls. -/
def read? (nesting : Nat) (text : String) : Option Json :=
  let input := text.toList
  match Reader.value? (2 * input.length + 2) nesting input with
  | some (value, rest) => if (Reader.skipBlanks rest).isEmpty then some value else none
  | none => none

end LuaLowering.Json
