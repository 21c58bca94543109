import LuaLowering.Number
import LuaLowering.Text

namespace LuaLowering

/-- The identity of a source symbol in emitted code. -/
structure Identity where
  value : UInt32
deriving DecidableEq, Repr

namespace Identity

/-- Shared by all temporaries; no symbol ever gets it. -/
def temporary : Identity := ⟨0⟩

def isTemporary (identity : Identity) : Bool := identity = temporary

def text (identity : Identity) : String := toString identity.value.toNat

def debugText (identity : Identity) : String := "SymbolId(" ++ identity.text ++ ")"

end Identity

namespace Lua

/-! Lua expressions. -/

/-- A name in emitted code, with what is known about where it comes from. -/
structure Ident where
  text : String
  sourceName : Option String := none
  identity : Option Identity := none
  span : Option Span := none
deriving DecidableEq, Repr

namespace Ident

/-- Stands in for a source identifier that was rejected. -/
def placeholderText : String := "____"

def placeholder (span : Span) : Ident := { text := placeholderText, span := some span }

/-- A temporary of an optional chain; it has no place in the source. -/
def temporary (text : String) : Ident := { text := text, identity := some .temporary }

def isPlaceholder (ident : Ident) : Bool :=
  ident.text = placeholderText && ident.identity.isNone

end Ident

inductive BinaryOp where
  | add | sub | mul | div | floorDiv | mod | pow | concat
  | eq | ne | lt | le | gt | ge
  | bitAnd | bitOr | bitXor | shiftLeft | shiftRight
deriving DecidableEq, Repr

namespace BinaryOp

def all : List BinaryOp :=
  [.add, .sub, .mul, .div, .floorDiv, .mod, .pow, .concat, .eq, .ne, .lt, .le, .gt, .ge,
    .bitAnd, .bitOr, .bitXor, .shiftLeft, .shiftRight]

def text : BinaryOp → String
  | add => "+"
  | sub => "-"
  | mul => "*"
  | div => "/"
  | floorDiv => "//"
  | mod => "%"
  | pow => "^"
  | concat => ".."
  | eq => "=="
  | ne => "~="
  | lt => "<"
  | le => "<="
  | gt => ">"
  | ge => ">="
  | bitAnd => "&"
  | bitOr => "|"
  | bitXor => "~"
  | shiftLeft => "<<"
  | shiftRight => ">>"

end BinaryOp

inductive UnaryOp where
  | neg | bitNot | length | not
deriving DecidableEq, Repr

namespace UnaryOp

def all : List UnaryOp := [.neg, .bitNot, .length, .not]

/-- A word needs a blank after it. -/
def text : UnaryOp → String
  | neg => "-"
  | bitNot => "~"
  | length => "#"
  | not => "not "

end UnaryOp

inductive Expr where
  | nil
  | dots
  | boolean (value : Bool)
  | numeric (value : Binary64)
  | string (value : String)
  | ident (word : Ident)
  | index (table key : Expr)
  | binary (op : BinaryOp) (left right : Expr)
  | unary (op : UnaryOp) (operand : Expr)
  | call (callee : Expr) (arguments : List Expr)
  /-- Several values, where Lua takes a list. -/
  | multiple (values : List Expr)
  /-- The head of a numeric loop. -/
  | numericRange (start limit : Expr) (step : Option Expr)
deriving Repr

namespace Expr

def name (text : String) : Expr := .ident { text := text }

/-- The entry of a table under a string key. -/
def field (table : Expr) (key : String) : Expr := .index table (.string key)

end Expr

end Lua

end LuaLowering
