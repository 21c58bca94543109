import LuaLowering.Lua.Expr

namespace LuaLowering.Lua

/-! The Lua versions that code is emitted for. -/

inductive Target where
  | universal
  | lua50
  | lua51
  | lua52
  | lua53
  | lua54
  | luaJit
deriving DecidableEq, Repr

namespace Target

def all : List Target := [.universal, .lua50, .lua51, .lua52, .lua53, .lua54, .luaJit]

def name : Target → String
  | universal => "universal"
  | lua50 => "5.0"
  | lua51 => "5.1"
  | lua52 => "5.2"
  | lua53 => "5.3"
  | lua54 => "5.4"
  | luaJit => "JIT"

/-- Whether the version has floor division and the bitwise operators. -/
def hasIntegerOperators : Target → Bool
  | lua53 => true
  | lua54 => true
  | _ => false

/-- The version's own function that spreads a table into values.  No single name works in all
versions. -/
def unpack? : Target → Option Expr
  | universal => none
  | lua50 => some (.name "unpack")
  | lua51 => some (.name "unpack")
  | luaJit => some (.name "unpack")
  | lua52 => some (.field (.name "table") "unpack")
  | lua53 => some (.field (.name "table") "unpack")
  | lua54 => some (.field (.name "table") "unpack")

end Target

end LuaLowering.Lua
