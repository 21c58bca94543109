import LuaLowering.Lowering.Expr

namespace LuaLowering

/-! Lowering whole units, each from a fresh state. -/

structure SourceUnit where
  unit : UnitId
  exprs : List Source.Expr
deriving Repr

structure LoweredUnit where
  unit : UnitId
  exprs : List Lua.Expr
  diagnostics : List Diagnostic
  features : FeatureSet
deriving Repr

/-- A unit that could not be lowered, with what was reported until then. -/
structure UnitFailure where
  unit : UnitId
  error : LoweringError
  diagnostics : List Diagnostic
deriving DecidableEq, Repr

namespace UnitFailure

def message (failure : UnitFailure) : String := failure.unit.text ++ ": " ++ failure.error.message

end UnitFailure

def lowerUnit (checker : Checker) (bindings : Bindings) (options : Options) (source : SourceUnit) :
    Except UnitFailure LoweredUnit :=
  let env : Environment :=
    { checker := checker, bindings := bindings, options := options, unit := source.unit }
  match (env.lowerAll source.exprs).outcome {} with
  | (.ok exprs, state) =>
      .ok {
        unit := source.unit
        exprs := exprs
        diagnostics := state.log.entries
        features := state.features }
  | (.error error, state) =>
      .error { unit := source.unit, error := error, diagnostics := state.log.entries }

def lowerUnits (checker : Checker) (bindings : Bindings) (options : Options)
    (sources : List SourceUnit) : List (Except UnitFailure LoweredUnit) :=
  sources.map (lowerUnit checker bindings options)

/-- The polyfills that several units need together. -/
def mergedFeatures (units : List LoweredUnit) : FeatureSet :=
  units.foldl (fun merged unit => merged.merge unit.features) {}

end LuaLowering
