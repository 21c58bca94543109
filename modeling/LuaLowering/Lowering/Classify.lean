import LuaLowering.Lowering.State
import LuaLowering.Source.Expr

namespace LuaLowering

/-! The kinds of identifiers.  Classifying reports nothing and requires nothing. -/

/-- What has to be reported about an identifier that is lowered all the same. -/
structure Notes where
  misplaced : Option Marker := none
  deprecated : Option TypeTag := none
deriving DecidableEq, Repr

inductive Classification where
  /-- A temporary of an optional chain. -/
  | continuation
  /-- A marker outside its position, to be replaced. -/
  | marker (marker : Marker)
  /-- A standard name that a polyfill replaces. -/
  | builtin (feature : Feature) (notes : Notes)
  | standard (symbol : Option Symbol) (type : Ty) (notes : Notes)
deriving DecidableEq, Repr

namespace Environment

def markerOf (env : Environment) (identifier : Identifier) : Option Marker :=
  env.bindings.extensions.markerOf env.checker (env.checker.symbolAt identifier.node)
    (env.checker.typeAt identifier.node)

def deprecatedTag? (env : Environment) (type : Ty) : Option TypeTag :=
  if env.checker.hasTag type .forRange then some .forRange else none

/-- Replaced markers come before builtins, and builtins before everything else. -/
def classify (env : Environment) (identifier : Identifier) : Classification :=
  if identifier.continuesChain then .continuation
  else
    let symbol := env.checker.symbolAt identifier.node
    let type := env.checker.typeAt identifier.node
    let marker := env.markerOf identifier
    match marker.filter Marker.isReplaced with
    | some replaced => .marker replaced
    | none =>
        let notes : Notes :=
          { misplaced := marker, deprecated := env.deprecatedTag? type }
        match env.bindings.builtins.substitute? env.checker symbol type with
        | some feature => .builtin feature notes
        | none => .standard symbol type notes

end Environment

end LuaLowering
