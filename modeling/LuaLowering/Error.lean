namespace LuaLowering

/-! Failures that stop the lowering of a unit. -/

inductive LoweringError where
  | identitiesExhausted (allocated : UInt32)
  | unknownFeature (id : String)
  | endlessScopes (symbol : String)
  | wrongArity (extension : String) (expected found : Nat)
deriving DecidableEq, Repr

namespace LoweringError

def message : LoweringError → String
  | identitiesExhausted allocated =>
      "symbol identity space exhausted after " ++ toString allocated.toNat ++ " allocations"
  | unknownFeature id => "unknown lualib feature `" ++ id ++ "`"
  | endlessScopes symbol => "scope chain of `" ++ symbol ++ "` does not terminate"
  | wrongArity extension expected found =>
      "`" ++ extension ++ "` expects " ++ toString expected ++ " argument(s), found " ++
        toString found

end LoweringError

end LuaLowering
