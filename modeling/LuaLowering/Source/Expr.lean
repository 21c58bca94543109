import LuaLowering.Number
import LuaLowering.Program.Checker
import LuaLowering.Text

namespace LuaLowering

/-! The part of the source language that lowering looks at. -/

structure Identifier where
  node : Node
  text : String
  span : Span
  /-- Whether it continues an optional chain, and so stands for a temporary. -/
  continuesChain : Bool := false
deriving DecidableEq, Repr

namespace Identifier

def isUndefined (identifier : Identifier) : Bool := identifier.text = "undefined"

end Identifier

namespace Source

inductive Expr where
  | ident (identifier : Identifier)
  | call (callee : Expr) (arguments : List Expr) (span : Span)
  | spread (inner : Expr) (span : Span)
  | numeric (value : Binary64) (span : Span)
  | string (value : String) (span : Span)
deriving Repr

namespace Expr

def span : Expr → Span
  | ident identifier => identifier.span
  | call _ _ span => span
  | spread _ span => span
  | numeric _ span => span
  | string _ span => span

end Expr

end Source

end LuaLowering
