import LuaLowering.Lua.Expr
import LuaLowering.Source.Expr

namespace LuaLowering

/-! What occurs in an expression, in the order in which it is written. -/

namespace Source.Expr

mutual

def identifiers : Expr → List Identifier
  | .ident identifier => [identifier]
  | .call callee arguments _ => identifiers callee ++ identifiersAll arguments
  | .spread inner _ => identifiers inner
  | .numeric .. => []
  | .string .. => []

def identifiersAll : List Expr → List Identifier
  | [] => []
  | first :: rest => identifiers first ++ identifiersAll rest

end

mutual

/-- The calls, each as what is called and with what. -/
def calls : Expr → List (Expr × List Expr)
  | .ident _ => []
  | .call callee arguments _ => (callee, arguments) :: (calls callee ++ callsAll arguments)
  | .spread inner _ => calls inner
  | .numeric .. => []
  | .string .. => []

def callsAll : List Expr → List (Expr × List Expr)
  | [] => []
  | first :: rest => calls first ++ callsAll rest

end

end Source.Expr

namespace Lua.Expr

mutual

def idents : Expr → List Ident
  | .nil => []
  | .dots => []
  | .boolean _ => []
  | .numeric _ => []
  | .string _ => []
  | .ident word => [word]
  | .index table key => idents table ++ idents key
  | .binary _ left right => idents left ++ idents right
  | .unary _ operand => idents operand
  | .call callee arguments => idents callee ++ identsAll arguments
  | .multiple values => identsAll values
  | .numericRange start limit step => idents start ++ idents limit ++ identsStep step

def identsAll : List Expr → List Ident
  | [] => []
  | first :: rest => idents first ++ identsAll rest

def identsStep : Option Expr → List Ident
  | none => []
  | some step => idents step

end

mutual

/-- What is called, call by call. -/
def callees : Expr → List Expr
  | .nil => []
  | .dots => []
  | .boolean _ => []
  | .numeric _ => []
  | .string _ => []
  | .ident _ => []
  | .index table key => callees table ++ callees key
  | .binary _ left right => callees left ++ callees right
  | .unary _ operand => callees operand
  | .call callee arguments => callee :: (callees callee ++ calleesAll arguments)
  | .multiple values => calleesAll values
  | .numericRange start limit step => callees start ++ callees limit ++ calleesStep step

def calleesAll : List Expr → List Expr
  | [] => []
  | first :: rest => callees first ++ calleesAll rest

def calleesStep : Option Expr → List Expr
  | none => []
  | some step => callees step

end

@[simp] theorem callees_field (table : Expr) (key : String) :
    (field table key).callees = table.callees := by
  simp only [field, callees, List.append_nil]

@[simp] theorem idents_name (text : String) : (name text).idents = [{ text := text }] := by
  simp only [name, idents]

@[simp] theorem idents_field (table : Expr) (key : String) :
    (field table key).idents = table.idents := by
  simp only [field, idents, List.append_nil]

theorem idents_foldl_field (table : Expr) (keys : List String) :
    (keys.foldl field table).idents = table.idents := by
  induction keys generalizing table with
  | nil => rfl
  | cons key keys ih =>
      rw [List.foldl_cons, ih, idents_field]

end Lua.Expr

end LuaLowering
