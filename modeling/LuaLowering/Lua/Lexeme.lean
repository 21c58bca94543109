import LuaLowering.Number

namespace LuaLowering.Lua

/-! The words of Lua: reserved words, the shape of an identifier, the names of the standard
environment. -/

def keywords : List String :=
  ["and", "break", "do", "else", "elseif", "end", "false", "for", "function", "goto", "if", "in",
    "local", "nil", "not", "or", "repeat", "return", "then", "true", "until", "while"]

def isKeyword (name : String) : Bool := keywords.contains name

def isNameStart (c : Char) : Bool := c.isAlpha || c == '_'

def isNameChar (c : Char) : Bool := c.isAlphanum || c == '_'

/-- Identifiers are ASCII words that are not reserved. -/
def isIdentifier (name : String) : Bool :=
  match name.toList with
  | [] => false
  | first :: rest => isNameStart first && rest.all isNameChar && !isKeyword name

/-- The global names that emitted code must never shadow. -/
def globalNames : List String :=
  ["_G", "assert", "coroutine", "debug", "error", "getmetatable", "ipairs", "math", "next", "pairs",
    "pcall", "print", "rawequal", "rawget", "rawlen", "rawset", "require", "select", "setmetatable",
    "string", "table", "tonumber", "tostring", "type", "unpack", "xpcall"]

def isGlobalName (name : String) : Bool := globalNames.contains name

/-! Spelling source names in Lua.  Names that cannot stand as written get a reserved opening, and
names that already have that opening are respelled too, so that the two kinds never meet. -/

/-- The four underscores with which every respelled name begins. -/
def reservedOpening : String := "____"

def isUnsafe (name : String) : Bool := !isIdentifier name || isGlobalName name

def needsMangling (name : String) : Bool :=
  isUnsafe name || reservedOpening.toList.isPrefixOf name.toList

def hexDigit (n : Nat) : Char := if n < 10 then Char.ofNat (48 + n) else Char.ofNat (55 + n)

/-- Upper-case hexadecimal digits, without leading zeros. -/
def hexDigits (n : Nat) : List Char :=
  if n < 16 then [hexDigit n] else hexDigits (n / 16) ++ [hexDigit (n % 16)]

/-- ASCII letters and digits stand for themselves; any other character is its code point in
hexadecimal between underscores. -/
def mangleChar (c : Char) : List Char :=
  if c.isAlphanum then [c] else '_' :: hexDigits c.toNat ++ ['_']

def mangle (name : String) : String :=
  String.ofList (reservedOpening.toList ++ name.toList.flatMap mangleChar)

/-- The spelling of a source name in Lua. -/
def emit (name : String) : String := if needsMangling name then mangle name else name

/-! How numbers are written in emitted Lua. -/

/-- Integers below this size are written as integers. -/
def integerBound : Nat := 1000000000000000

def signed (negative : Bool) (text : List Char) : List Char :=
  if negative then '-' :: text else text

/-- Integers of moderate size have no sign on zero; any other number is written positionally with
the fewest digits that read back. -/
def numeral (value : Binary64) : List Char :=
  match value.integerSize? with
  | some size =>
      if size < integerBound then
        signed (value.isNegative && decide (0 < size)) (Decimal.digits size)
      else signed value.isNegative value.shortest.positional
  | none =>
      if value.isFinite then signed value.isNegative value.shortest.positional
      else if value.isNaN then "NaN".toList
      else signed value.isNegative "inf".toList

/-! Short string literals. -/

def escapeChar (c : Char) : List Char :=
  match c with
  | '"' => ['\\', '"']
  | '\\' => ['\\', '\\']
  | '\n' => ['\\', 'n']
  | '\r' => ['\\', 'r']
  | '\t' => ['\\', 't']
  | '\x00' => ['\\', '0']
  | _ => [c]

/-- A text between double quotes. -/
def quote (text : String) : List Char := '"' :: text.toList.flatMap escapeChar ++ ['"']

end LuaLowering.Lua
