import LuaLowering.Lowering.Expr
import LuaLowering.Proofs.Lowering.Outcome
import Mathlib.Data.List.Forall2

namespace LuaLowering

/-! Two runs side by side.  Steps are coupled if they lead from related states to related
outcomes. -/

structure Coupling where
  states : UnitState → UnitState → Prop
  errors : LoweringError → LoweringError → Prop
  /-- Failures of the first run after which nothing is asked of the second one. -/
  excused : LoweringError → Prop

namespace Coupling

variable {α β γ δ : Type}

inductive Outcomes (coupling : Coupling) (values : α → β → Prop) :
    Except LoweringError α × UnitState → Except LoweringError β × UnitState → Prop
  | ok {value : α} {value' : β} {after after' : UnitState} (hvalues : values value value')
      (hstates : coupling.states after after') :
      Outcomes coupling values (.ok value, after) (.ok value', after')
  | error {error error' : LoweringError} {after after' : UnitState}
      (herrors : coupling.errors error error') (hstates : coupling.states after after') :
      Outcomes coupling values (.error error, after) (.error error', after')
  | excused {error : LoweringError} {after : UnitState}
      {outcome : Except LoweringError β × UnitState} (hexcused : coupling.excused error) :
      Outcomes coupling values (.error error, after) outcome

def Couples (coupling : Coupling) (values : α → β → Prop) (step : Lower α) (step' : Lower β) :
    Prop :=
  ∀ ⦃state state' : UnitState⦄, coupling.states state state' →
    coupling.Outcomes values (step.outcome state) (step'.outcome state')

variable {coupling : Coupling} {values : α → β → Prop}

theorem Outcomes.mono {outcome : Except LoweringError α × UnitState}
    {outcome' : Except LoweringError β × UnitState} {weaker : α → β → Prop}
    (houtcomes : coupling.Outcomes values outcome outcome')
    (himp : ∀ value value', values value value' → weaker value value') :
    coupling.Outcomes weaker outcome outcome' := by
  cases houtcomes with
  | ok hvalues hstates => exact .ok (himp _ _ hvalues) hstates
  | error herrors hstates => exact .error herrors hstates
  | excused hexcused => exact .excused hexcused

namespace Couples

variable {step : Lower α} {step' : Lower β} {next : α → Lower γ} {next' : β → Lower δ}
  {results : γ → δ → Prop}

theorem pure {value : α} {value' : β} (hvalues : values value value') :
    coupling.Couples values (Pure.pure value) (Pure.pure value') :=
  fun _ _ hstates => .ok hvalues hstates

theorem throw {error error' : LoweringError} (herrors : coupling.errors error error') :
    coupling.Couples values (MonadExcept.throw error) (MonadExcept.throw error') :=
  fun _ _ hstates => .error herrors hstates

theorem bind (hstep : coupling.Couples values step step')
    (hnext : ∀ value value', values value value' →
      coupling.Couples results (next value) (next' value')) :
    coupling.Couples results (step >>= next) (step' >>= next') := by
  intro state state' hstates
  have hfirst := hstep hstates
  rw [Lower.outcome_bind, Lower.outcome_bind]
  generalize step.outcome state = outcome at hfirst ⊢
  generalize step'.outcome state' = outcome' at hfirst ⊢
  cases hfirst with
  | ok hvalues hstates => exact hnext _ _ hvalues hstates
  | error herrors hstates => exact .error herrors hstates
  | excused hexcused => exact .excused hexcused

theorem bind_eq {step step' : Lower α} {next : α → Lower γ} {next' : α → Lower δ}
    (hstep : coupling.Couples Eq step step')
    (hnext : ∀ value, coupling.Couples results (next value) (next' value)) :
    coupling.Couples results (step >>= next) (step' >>= next') := by
  apply bind hstep
  intro value value' hvalues
  subst hvalues
  exact hnext value

theorem mono {weaker : α → β → Prop} (hcouples : coupling.Couples values step step')
    (himp : ∀ value value', values value value' → weaker value value') :
    coupling.Couples weaker step step' :=
  fun _ _ hstates => (hcouples hstates).mono himp

end Couples

end Coupling

/-! Source expressions of one shape. -/

namespace Source.Expr

mutual

/-- Expressions that differ in their identifiers only. -/
inductive Alike (identifiers : Identifier → Identifier → Prop) : Expr → Expr → Prop
  | ident {identifier identifier' : Identifier} (halike : identifiers identifier identifier') :
      Alike identifiers (.ident identifier) (.ident identifier')
  | call {callee callee' : Expr} {arguments arguments' : List Expr} (span : Span)
      (hcallee : Alike identifiers callee callee')
      (harguments : AlikeAll identifiers arguments arguments') :
      Alike identifiers (.call callee arguments span) (.call callee' arguments' span)
  | spread {inner inner' : Expr} (span : Span) (hinner : Alike identifiers inner inner') :
      Alike identifiers (.spread inner span) (.spread inner' span)
  | numeric (value : Binary64) (span : Span) :
      Alike identifiers (.numeric value span) (.numeric value span)
  | string (value : String) (span : Span) :
      Alike identifiers (.string value span) (.string value span)

inductive AlikeAll (identifiers : Identifier → Identifier → Prop) : List Expr → List Expr → Prop
  | nil : AlikeAll identifiers [] []
  | cons {first first' : Expr} {rest rest' : List Expr} (hfirst : Alike identifiers first first')
      (hrest : AlikeAll identifiers rest rest') :
      AlikeAll identifiers (first :: rest) (first' :: rest')

end

variable {identifiers : Identifier → Identifier → Prop}

theorem AlikeAll.length_eq {exprs exprs' : List Expr}
    (halike : AlikeAll identifiers exprs exprs') : exprs.length = exprs'.length := by
  induction exprs generalizing exprs' with
  | nil =>
      cases halike
      rfl
  | cons first rest ih =>
      cases halike with
      | cons hfirst hrest => rw [List.length_cons, List.length_cons, ih hrest]

mutual

theorem alike_refl (hrefl : ∀ identifier, identifiers identifier identifier) (expr : Expr) :
    Alike identifiers expr expr := by
  cases expr with
  | ident identifier => exact .ident (hrefl identifier)
  | call callee arguments span =>
      exact .call span (alike_refl hrefl callee) (alikeAll_refl hrefl arguments)
  | spread inner span => exact .spread span (alike_refl hrefl inner)
  | numeric value span => exact .numeric value span
  | string value span => exact .string value span

theorem alikeAll_refl (hrefl : ∀ identifier, identifiers identifier identifier)
    (exprs : List Expr) : AlikeAll identifiers exprs exprs := by
  cases exprs with
  | nil => exact .nil
  | cons first rest => exact .cons (alike_refl hrefl first) (alikeAll_refl hrefl rest)

end

mutual

theorem Alike.mono {weaker : Identifier → Identifier → Prop} {expr expr' : Expr}
    (halike : Alike identifiers expr expr')
    (himp : ∀ identifier identifier', identifiers identifier identifier' →
      weaker identifier identifier') : Alike weaker expr expr' := by
  cases halike with
  | ident halike => exact .ident (himp _ _ halike)
  | call span hcallee harguments => exact .call span (hcallee.mono himp) (harguments.mono himp)
  | spread span hinner => exact .spread span (hinner.mono himp)
  | numeric value span => exact .numeric value span
  | string value span => exact .string value span

theorem AlikeAll.mono {weaker : Identifier → Identifier → Prop} {exprs exprs' : List Expr}
    (halike : AlikeAll identifiers exprs exprs')
    (himp : ∀ identifier identifier', identifiers identifier identifier' →
      weaker identifier identifier') : AlikeAll weaker exprs exprs' := by
  cases halike with
  | nil => exact .nil
  | cons hfirst hrest => exact .cons (hfirst.mono himp) (hrest.mono himp)

end

end Source.Expr

/-! Lua expressions compared part by part. -/

namespace Lua.Expr

structure Congruence (values : Expr → Expr → Prop) : Prop where
  refl : ∀ expr, values expr expr
  index : ∀ {table table' key key'}, values table table' → values key key' →
    values (.index table key) (.index table' key')
  binary : ∀ {op left left' right right'}, values left left' → values right right' →
    values (.binary op left right) (.binary op left' right')
  unary : ∀ {op operand operand'}, values operand operand' →
    values (.unary op operand) (.unary op operand')
  call : ∀ {callee callee' arguments arguments'}, values callee callee' →
    List.Forall₂ values arguments arguments' →
    values (.call callee arguments) (.call callee' arguments')
  multiple : ∀ {members members'}, List.Forall₂ values members members' →
    values (.multiple members) (.multiple members')

mutual

/-- Replaces every word and the content of every string. -/
def map (words : Ident → Ident) (contents : String → String) : Expr → Expr
  | .nil => .nil
  | .dots => .dots
  | .boolean value => .boolean value
  | .numeric value => .numeric value
  | .string value => .string (contents value)
  | .ident word => .ident (words word)
  | .index table key => .index (map words contents table) (map words contents key)
  | .binary op left right => .binary op (map words contents left) (map words contents right)
  | .unary op operand => .unary op (map words contents operand)
  | .call callee arguments => .call (map words contents callee) (mapAll words contents arguments)
  | .multiple values => .multiple (mapAll words contents values)
  | .numericRange start limit step =>
      .numericRange (map words contents start) (map words contents limit)
        (mapStep words contents step)

def mapAll (words : Ident → Ident) (contents : String → String) : List Expr → List Expr
  | [] => []
  | first :: rest => map words contents first :: mapAll words contents rest

def mapStep (words : Ident → Ident) (contents : String → String) : Option Expr → Option Expr
  | none => none
  | some step => some (map words contents step)

end

variable {words : Ident → Ident} {contents : String → String}

/-- Expressions that become equal once words and strings are replaced. -/
def SameUnder (words : Ident → Ident) (contents : String → String) (expr expr' : Expr) : Prop :=
  expr.map words contents = expr'.map words contents

theorem mapAll_eq_map (exprs : List Expr) :
    mapAll words contents exprs = exprs.map (map words contents) := by
  induction exprs with
  | nil => simp only [mapAll, List.map_nil]
  | cons first rest ih => simp only [mapAll, ih, List.map_cons]

theorem map_eq_map_of_forall₂ {exprs exprs' : List Expr}
    (hsame : List.Forall₂ (SameUnder words contents) exprs exprs') :
    exprs.map (map words contents) = exprs'.map (map words contents) := by
  induction hsame with
  | nil => rfl
  | cons hfirst _ ih => rw [List.map_cons, List.map_cons, ih, hfirst]

theorem congruence_sameUnder : Congruence (SameUnder words contents) where
  refl _ := rfl
  index htable hkey := by
    rw [SameUnder, map, map, htable, hkey]
  binary hleft hright := by
    rw [SameUnder, map, map, hleft, hright]
  unary hoperand := by
    rw [SameUnder, map, map, hoperand]
  call hcallee harguments := by
    rw [SameUnder, map, map, hcallee, mapAll_eq_map, mapAll_eq_map,
      map_eq_map_of_forall₂ harguments]
  multiple hmembers := by
    rw [SameUnder, map, map, mapAll_eq_map, mapAll_eq_map, map_eq_map_of_forall₂ hmembers]

end Lua.Expr

/-! Programs that differ in names only. -/

namespace Checker

/-- The checker without the names of symbols and scopes. -/
def anonymous (checker : Checker) : Checker :=
  { checker with
    symbolName := fun _ => ""
    scopeInfo := fun scope => { checker.scopeInfo scope with name := "" } }

variable {checker checker' : Checker}

theorem scopeInfo_of_anonymous_eq (hanonymous : checker.anonymous = checker'.anonymous)
    (scope : Scope) :
    checker'.scopeInfo scope =
      { checker.scopeInfo scope with name := (checker'.scopeInfo scope).name } := by
  have hinfo := congrFun (congrArg Checker.scopeInfo hanonymous) scope
  simp only [anonymous, ScopeInfo.mk.injEq] at hinfo
  obtain ⟨_, hkind, hparent, hsymbol⟩ := hinfo
  simp only [hkind, hparent, hsymbol]

/-- Climbs end alike, and those that reach a table pass as many tables. -/
inductive ClimbsAlike : Climb → Climb → Prop
  | endless : ClimbsAlike .endless .endless
  | hidden : ClimbsAlike .hidden .hidden
  | reached {segments segments' : List String} (hlength : segments.length = segments'.length) :
      ClimbsAlike (.reached segments) (.reached segments')

theorem climb_of_anonymous_eq (hanonymous : checker.anonymous = checker'.anonymous)
    (scopes : Nat) (scope : Scope) {inner inner' : List String}
    (hlength : inner.length = inner'.length) :
    ClimbsAlike (checker.climb scopes scope inner) (checker'.climb scopes scope inner') := by
  have hexported : checker.isExported = checker'.isExported :=
    (congrArg Checker.isExported hanonymous :)
  induction scopes generalizing scope inner inner' with
  | zero => exact .endless
  | succ scopes ih =>
      have hinfo := scopeInfo_of_anonymous_eq hanonymous scope
      generalize (checker'.scopeInfo scope).name = name at hinfo
      have hparent : checker'.exportingParent? (checker'.scopeInfo scope) =
          checker.exportingParent? (checker.scopeInfo scope) := by
        rw [hinfo, exportingParent?, exportingParent?, hexported]
      simp only [climb, hparent]
      rw [hinfo]
      cases (checker.scopeInfo scope).kind with
      | moduleFile => exact .reached (congrArg Nat.succ hlength)
      | scriptFile => exact .hidden
      | function => exact .hidden
      | block => exact .hidden
      | nameSpace =>
          cases checker.exportingParent? (checker.scopeInfo scope) with
          | some parent => exact ih parent (congrArg Nat.succ hlength)
          | none => exact .reached (congrArg Nat.succ hlength)

/-- What two checkers answer about the path to one symbol. -/
inductive PathsAlike (name name' : String) :
    Except LoweringError (Option ExportPath) → Except LoweringError (Option ExportPath) → Prop
  | endless : PathsAlike name name' (.error (.endlessScopes name)) (.error (.endlessScopes name'))
  | none : PathsAlike name name' (.ok none) (.ok none)
  | some {path path' : ExportPath} (hlength : path.segments.length = path'.segments.length) :
      PathsAlike name name' (.ok (some path)) (.ok (some path'))

theorem exportPath_of_anonymous_eq (hanonymous : checker.anonymous = checker'.anonymous)
    (symbol : Symbol) :
    PathsAlike (checker.symbolName symbol) (checker'.symbolName symbol)
      (checker.exportPath symbol) (checker'.exportPath symbol) := by
  have hexported : checker.isExported = checker'.isExported :=
    (congrArg Checker.isExported hanonymous :)
  have hscope : checker.declaringScope = checker'.declaringScope :=
    (congrArg Checker.declaringScope hanonymous :)
  simp only [exportPath, hexported, hscope]
  cases checker'.isExported symbol with
  | false => exact .none
  | true =>
      cases checker'.declaringScope symbol with
      | none => exact .none
      | some scope =>
          have hclimbs : ClimbsAlike (checker.climb maxScopes scope [])
              (checker'.climb maxScopes scope []) :=
            climb_of_anonymous_eq hanonymous maxScopes scope rfl
          simp only [if_true]
          generalize checker.climb maxScopes scope [] = climb at hclimbs ⊢
          generalize checker'.climb maxScopes scope [] = climb' at hclimbs ⊢
          cases hclimbs with
          | endless => exact .endless
          | hidden => exact .none
          | reached hlength => exact .some hlength

end Checker

end LuaLowering
