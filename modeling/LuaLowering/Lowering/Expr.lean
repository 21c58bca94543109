import LuaLowering.Lowering.Identifier

namespace LuaLowering

/-! Lowering expressions.  A marker in its position becomes the Lua feature that it stands for. -/

namespace Environment

/-- The marker of a call is the one of the identifier that is called. -/
def calleeMarker (env : Environment) : Source.Expr → Option Marker
  | .ident identifier => env.markerOf identifier
  | _ => none

/-- A spread of the varargs marker is written as dots. -/
def isVarargs (env : Environment) : Source.Expr → Bool
  | .ident identifier => env.markerOf identifier = some .vararg
  | _ => false

def reportUnsupported (env : Environment) (operator : MappedOperator) (span : Span) : Lower Unit :=
  let target := env.options.luaTarget
  if operator.isSupportedBy target then return ()
  else env.report span (.unsupportedOperator operator.declaration target)

def applyOperator (operator : MappedOperator) (operands : List Lua.Expr) : Lower Lua.Expr :=
  match operator.form, operands with
  | .binary op, [left, right] => return .binary op left right
  | .unary op, [operand] => return .unary op operand
  | _, _ => throw (.wrongArity operator.declaration operator.arity operands.length)

def applyTableAccess (access : TableAccess) (operands : List Lua.Expr) : Lower Lua.Expr :=
  match operands with
  | [table, key] =>
      match access with
      | .get => return .index table key
      | .has => return .binary .ne (.index table key) .nil
  | _ => throw (.wrongArity access.declaration TableAccess.arity operands.length)

/-- The function that spreads a table into values. -/
def unpacker (env : Environment) : Lower Lua.Expr :=
  match env.options.luaTarget.unpack? with
  | some function => return function
  | none => do
      Lower.require .unpack
      return .name Feature.unpack.entryPoint

mutual

/-- Operators are checked for their number of arguments before the arguments are lowered, table
accesses after that. -/
def lower (env : Environment) : Source.Expr → Lower Lua.Expr
  | .ident identifier => env.lowerRead identifier
  | .call callee arguments span =>
      match env.calleeMarker callee with
      | some .multiReturn => return .multiple (← env.lowerAll arguments)
      | some (.operator operator) =>
          if arguments.length = operator.arity then do
            env.reportUnsupported operator span
            applyOperator operator (← env.lowerAll arguments)
          else
            throw (.wrongArity operator.declaration operator.arity arguments.length)
      | some (.tableAccess access) => do applyTableAccess access (← env.lowerAll arguments)
      | some .range => do
          env.report span .rangeMisuse
          return .ident (.placeholder span)
      | _ => do
          let function ← env.lower callee
          return .call function (← env.lowerAll arguments)
  | .spread inner _ =>
      if env.isVarargs inner then return .dots
      else do
        let value ← env.lower inner
        return .call (← env.unpacker) [value]
  | .numeric value _ => return .numeric value
  | .string value _ => return .string value

/-- Lowers expressions in order and stops at the first failure. -/
def lowerAll (env : Environment) : List Source.Expr → Lower (List Lua.Expr)
  | [] => return []
  | first :: rest => do
      let value ← env.lower first
      return value :: (← env.lowerAll rest)

end

/-- The bounds of a numeric loop, with or without a step. -/
def numericRange (bounds : List Lua.Expr) : Lower Lua.Expr :=
  match bounds with
  | [start, limit] => return .numericRange start limit none
  | [start, limit, step] => return .numericRange start limit (some step)
  | _ => throw (.wrongArity Marker.rangeName (if bounds.length < 2 then 2 else 3) bounds.length)

/-- What a loop runs over.  Only here may the range marker be called. -/
def lowerIterable (env : Environment) (iterable : Source.Expr) : Lower Lua.Expr :=
  match iterable with
  | .call callee arguments _ =>
      if env.calleeMarker callee = some .range then
        if 2 ≤ arguments.length ∧ arguments.length ≤ 3 then do
          numericRange (← env.lowerAll arguments)
        else
          throw (.wrongArity Marker.rangeName (if arguments.length < 2 then 2 else 3)
            arguments.length)
      else env.lower iterable
  | _ => env.lower iterable

end Environment

end LuaLowering
