import LuaLowering.Builtin
import LuaLowering.Diagnostic
import LuaLowering.Extension
import LuaLowering.Identity
import LuaLowering.Options.Basic
import LuaLowering.Polyfill.FeatureSet

namespace LuaLowering

/-! What the lowering of a unit reads, and what it gathers on the way.  A failure keeps what was
gathered before it. -/

/-- The library declarations of a program that have a meaning of their own. -/
structure Bindings where
  extensions : ExtensionTable := {}
  builtins : BuiltinTable := {}
deriving Repr

def Bindings.ofChecker (checker : Checker) : Bindings where
  extensions := .ofChecker checker
  builtins := .ofChecker checker

structure Environment where
  checker : Checker
  bindings : Bindings
  options : Options
  unit : UnitId

structure UnitState where
  log : Log := {}
  identities : IdentityTable := {}
  features : FeatureSet := {}
deriving DecidableEq, Repr

abbrev Lower := ExceptT LoweringError (StateM UnitState)

namespace Lower

/-- The outcome of a step, and the state it leaves behind whether it fails or not. -/
def outcome {α : Type} (step : Lower α) (state : UnitState) : Except LoweringError α × UnitState :=
  (ExceptT.run step).run state

@[simp] theorem outcome_pure {α : Type} (value : α) (state : UnitState) :
    outcome (pure value) state = (.ok value, state) := rfl

@[simp] theorem outcome_throw {α : Type} (error : LoweringError) (state : UnitState) :
    outcome (throw error : Lower α) state = (.error error, state) := rfl

@[simp] theorem outcome_get (state : UnitState) :
    outcome get state = (.ok state, state) := rfl

@[simp] theorem outcome_set (next state : UnitState) :
    outcome (set next) state = (.ok (), next) := rfl

/-- A failed step hands on its failure together with its state. -/
theorem outcome_bind {α β : Type} (step : Lower α) (next : α → Lower β) (state : UnitState) :
    outcome (step >>= next) state =
      match outcome step state with
      | (.ok value, state) => outcome (next value) state
      | (.error error, state) => (.error error, state) := by
  change (ExceptT.run step >>= ExceptT.bindCont next).run state = _
  simp only [StateT.run_bind, outcome]
  rcases hstep : StateT.run (ExceptT.run step) state with ⟨value | error, after⟩ <;> rfl

def require (feature : Feature) : Lower Unit :=
  modify fun state => { state with features := state.features.insert feature }

def identify (symbol : Symbol) (span : Span) : Lower Identity := do
  let state ← get
  let (answer, identities) := state.identities.identify symbol (some span)
  set { state with identities := identities }
  match answer with
  | .ok identity => return identity
  | .error error => throw error

@[simp] theorem outcome_require (feature : Feature) (state : UnitState) :
    outcome (require feature) state =
      (.ok (), { state with features := state.features.insert feature }) := rfl

theorem outcome_identify (symbol : Symbol) (span : Span) (state : UnitState) :
    outcome (identify symbol span) state =
      ((state.identities.identify symbol (some span)).1,
        { state with identities := (state.identities.identify symbol (some span)).2 }) := by
  rw [identify, outcome_bind, outcome_get]
  rcases hidentify : state.identities.identify symbol (some span) with ⟨error | identity, table⟩ <;>
    simp only [hidentify] <;> rfl

end Lower

namespace Environment

def report (env : Environment) (span : Span) (problem : Problem) : Lower Unit :=
  modify fun state => { state with log := state.log.add (Diagnostic.located env.unit span problem) }

@[simp] theorem outcome_report (env : Environment) (span : Span) (problem : Problem)
    (state : UnitState) :
    (env.report span problem).outcome state =
      (.ok (), { state with log := state.log.add (Diagnostic.located env.unit span problem) }) :=
  rfl

end Environment

end LuaLowering
