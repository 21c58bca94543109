import LuaLowering.Export
import LuaLowering.Lowering.Classify

namespace LuaLowering

/-! Lowering identifiers. -/

namespace Environment

/-- Whether a name has to be respelled.  A declared name cannot be, so it is reported if Lua cannot
write it. -/
def mustMangle (env : Environment) (identifier : Identifier) (symbol : Option Symbol) :
    Lower Bool :=
  match symbol with
  | none => return Lua.needsMangling identifier.text
  | some symbol =>
      let name := env.checker.symbolName symbol
      if env.checker.isAmbient symbol then
        if Lua.isIdentifier name then return false
        else do
          env.report identifier.span (.unspellableAmbient name)
          return true
      else return Lua.needsMangling name

def reportNotes (env : Environment) (identifier : Identifier) (notes : Notes) : Lower Unit := do
  if let some marker := notes.misplaced then
    env.report identifier.span marker.misuse
  if let some tag := notes.deprecated then
    env.report identifier.span (.removedTag tag)

def requireTypeFeature (env : Environment) (type : Ty) : Lower Unit :=
  match env.bindings.builtins.typeFeature? env.checker type with
  | some feature => Lower.require feature
  | none => return ()

def identifyAll (symbol : Option Symbol) (span : Span) : Lower (Option Identity) :=
  match symbol with
  | some symbol => return some (← Lower.identify symbol span)
  | none => return none

/-- An ordinary name, respelled if need be, with the identity of its symbol. -/
def lowerName (env : Environment) (identifier : Identifier) (symbol : Option Symbol) :
    Lower Lua.Ident := do
  let mangled ← env.mustMangle identifier symbol
  let identity ← identifyAll symbol identifier.span
  return {
    text := if mangled then Lua.mangle identifier.text else identifier.text
    sourceName := some identifier.text
    identity := identity
    span := some identifier.span }

def lowerIdentifier (env : Environment) (identifier : Identifier) : Lower Lua.Ident :=
  match env.classify identifier with
  | .continuation => return .temporary identifier.text
  | .marker marker => do
      env.report identifier.span marker.misuse
      return .placeholder identifier.span
  | .builtin feature notes => do
      env.reportNotes identifier notes
      Lower.require feature
      return {
        text := feature.entryPoint
        sourceName := some identifier.text
        span := some identifier.span }
  | .standard symbol type notes => do
      env.reportNotes identifier notes
      env.requireTypeFeature type
      env.lowerName identifier symbol

/-! Identifiers read as values. -/

/-- A name of a standard value, if the identifier is one. -/
def lowerBuiltinValue (env : Environment) (identifier : Identifier) : Lower (Option Lua.Expr) :=
  match env.checker.symbolAt identifier.node with
  | none => return none
  | some symbol =>
      match env.bindings.builtins.value? env.checker symbol with
      | none => return none
      | some .notANumber => return some (.binary .div (.numeric .zero) (.numeric .zero))
      | some .infinity => return some (.field (.name "math") "huge")
      | some .globalThis => do
          let identity ← Lower.identify symbol identifier.span
          return some (.ident {
            text := "_G"
            sourceName := some identifier.text
            identity := some identity
            span := some identifier.span })

/-- A read of an exported symbol goes through the tables on its path. -/
def lowerExport (env : Environment) (identifier : Identifier) (symbol : Symbol)
    (path : ExportPath) : Lower Lua.Expr := do
  let name := env.checker.symbolName symbol
  let mangled ← env.mustMangle identifier (some symbol)
  let identity ← Lower.identify symbol identifier.span
  return path.access {
    text := if mangled then Lua.mangle name else name
    sourceName := some name
    identity := some identity
    span := some identifier.span }

/-- The path of the symbol that an identifier is bound to. -/
def exportOf (env : Environment) (identifier : Identifier) :
    Except LoweringError (Option (Symbol × ExportPath)) :=
  match env.checker.symbolAt identifier.node with
  | none => .ok none
  | some symbol =>
      (env.checker.exportPath symbol).map fun path => path.map fun path => (symbol, path)

def lowerRead (env : Environment) (identifier : Identifier) : Lower Lua.Expr :=
  match env.exportOf identifier with
  | .error error => throw error
  | .ok (some (symbol, path)) => env.lowerExport identifier symbol path
  | .ok none =>
      if identifier.isUndefined then return .nil
      else do
        match ← env.lowerBuiltinValue identifier with
        | some value => return value
        | none => return .ident (← env.lowerIdentifier identifier)

end Environment

end LuaLowering
