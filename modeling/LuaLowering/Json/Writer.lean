import LuaLowering.Json.Basic
import LuaLowering.Number

namespace LuaLowering.Json

/-! JSON text without blanks. -/

namespace Writer

def hexDigit (n : Nat) : Char := if n < 10 then Char.ofNat (48 + n) else Char.ofNat (87 + n)

/-- The last `width` digits of a number in lower-case hexadecimal. -/
def hex (width n : Nat) : String :=
  String.ofList ((List.range width).reverse.map fun place => hexDigit (n / Nat.pow 16 place % 16))

def char (out : String) (c : Char) : String :=
  if c = '"' then out ++ "\\\""
  else if c = '\\' then out ++ "\\\\"
  else if c.toNat < 32 then out ++ "\\u" ++ hex 4 c.toNat
  else out.push c

def string (out text : String) : String := (text.toList.foldl char (out.push '"')).push '"'

/-- Doubles always have a point, so that they are not taken for whole numbers.  JSON has no numbers
that are not finite. -/
def real (value : Binary64) : String :=
  if value.isFinite then
    let size := value.shortest
    let digits := String.ofList size.positional
    (if value.isNegative then "-" else "") ++ digits ++ (if 0 ≤ size.exponent then ".0" else "")
  else "null"

def comma (first : Bool) (out : String) : String := if first then out else out.push ','

mutual

/-- Appends the text of a value to `out`. -/
def value (out : String) : Json → String
  | null => out ++ "null"
  | bool value => out ++ (if value then "true" else "false")
  | int value => out ++ toString value
  | Json.real value => out ++ real value
  | str value => string out value
  | arr items => (itemsText (out.push '[') true items).push ']'
  | obj members => (membersText (out.push '\x7b') true members).push '\x7d'

def itemsText (out : String) (first : Bool) : List Json → String
  | [] => out
  | item :: rest => itemsText (value (comma first out) item) false rest

def membersText (out : String) (first : Bool) : List (String × Json) → String
  | [] => out
  | (key, member) :: rest =>
      membersText (value ((string (comma first out) key).push ':') member) false rest

end

end Writer

def text (json : Json) : String := Writer.value "" json

end LuaLowering.Json
