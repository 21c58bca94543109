import LuaLowering.Proofs.Lowering.Gathering
import LuaLowering.Proofs.Lowering.Mirror
import LuaLowering.Proofs.Polyfill.Assembly

namespace LuaLowering

/-! The target decides which function spreads a table and which operators are complained about.
Nothing else in the outcome of lowering depends on it. -/

/-! Code without the choice of the spreading function. -/

namespace Lua.Expr

/-- The functions that lowering may call to spread a table, over all targets. -/
def isUnpacker : Expr → Bool
  | .ident word => word = { text := "unpack" } || word = { text := Feature.unpack.entryPoint }
  | .index (.ident table) (.string key) => table = { text := "table" } && key = "unpack"
  | _ => false

/-- Stands for whichever function spreads a table. -/
def anyUnpacker : Expr := .name "unpack"

mutual

/-- Puts the same word in the place of each spreading function that is called. -/
def withAnyUnpacker : Expr → Expr
  | .nil => .nil
  | .dots => .dots
  | .boolean value => .boolean value
  | .numeric value => .numeric value
  | .string value => .string value
  | .ident word => .ident word
  | .index table key => .index (withAnyUnpacker table) (withAnyUnpacker key)
  | .binary op left right => .binary op (withAnyUnpacker left) (withAnyUnpacker right)
  | .unary op operand => .unary op (withAnyUnpacker operand)
  | .call callee arguments =>
      .call (if callee.isUnpacker then anyUnpacker else withAnyUnpacker callee)
        (withAnyUnpackerAll arguments)
  | .multiple values => .multiple (withAnyUnpackerAll values)
  | .numericRange start limit step =>
      .numericRange (withAnyUnpacker start) (withAnyUnpacker limit) (withAnyUnpackerStep step)

def withAnyUnpackerAll : List Expr → List Expr
  | [] => []
  | first :: rest => withAnyUnpacker first :: withAnyUnpackerAll rest

def withAnyUnpackerStep : Option Expr → Option Expr
  | none => none
  | some step => some (withAnyUnpacker step)

end

theorem isUnpacker_withAnyUnpacker (expr : Expr) :
    expr.withAnyUnpacker.isUnpacker = expr.isUnpacker := by
  cases expr with
  | index table key =>
      cases table <;> cases key <;> simp only [withAnyUnpacker, isUnpacker]
  | _ => simp only [withAnyUnpacker, isUnpacker]

def SameButUnpackers (expr expr' : Expr) : Prop := expr.withAnyUnpacker = expr'.withAnyUnpacker

theorem withAnyUnpackerAll_eq_of_forall₂ {exprs exprs' : List Expr}
    (hsame : List.Forall₂ SameButUnpackers exprs exprs') :
    withAnyUnpackerAll exprs = withAnyUnpackerAll exprs' := by
  induction hsame with
  | nil => rfl
  | cons hfirst _ ih => rw [withAnyUnpackerAll, withAnyUnpackerAll, hfirst, ih]

theorem congruence_sameButUnpackers : Congruence SameButUnpackers where
  refl _ := rfl
  index htable hkey := by
    rw [SameButUnpackers, withAnyUnpacker, withAnyUnpacker, htable, hkey]
  binary hleft hright := by
    rw [SameButUnpackers, withAnyUnpacker, withAnyUnpacker, hleft, hright]
  unary hoperand := by
    rw [SameButUnpackers, withAnyUnpacker, withAnyUnpacker, hoperand]
  call hcallee harguments := by
    rw [SameButUnpackers, withAnyUnpacker, withAnyUnpacker, ← isUnpacker_withAnyUnpacker, hcallee,
      isUnpacker_withAnyUnpacker, withAnyUnpackerAll_eq_of_forall₂ harguments]
  multiple hmembers := by
    rw [SameButUnpackers, withAnyUnpacker, withAnyUnpacker,
      withAnyUnpackerAll_eq_of_forall₂ hmembers]

theorem sameButUnpackers_call {function function' value value' : Expr}
    (hfunction : function.isUnpacker = true) (hfunction' : function'.isUnpacker = true)
    (hvalue : SameButUnpackers value value') :
    SameButUnpackers (.call function [value]) (.call function' [value']) := by
  rw [SameButUnpackers, withAnyUnpacker, withAnyUnpacker, if_pos hfunction, if_pos hfunction',
    withAnyUnpackerAll_eq_of_forall₂ (.cons hvalue .nil)]

end Lua.Expr

theorem Lua.Target.isUnpacker_of_unpack? {target : Lua.Target} {function : Lua.Expr}
    (hfunction : target.unpack? = some function) : function.isUnpacker = true := by
  cases target <;> cases hfunction <;> decide

/-! Features without the polyfill that spreads tables.  Nothing depends on it, so that it does not
take part in the order of the others. -/

namespace FeatureSet

def withoutUnpack (set : FeatureSet) : List Feature :=
  set.features.filter fun feature => feature ≠ .unpack

theorem withoutUnpack_insert_unpack (set : FeatureSet) :
    (set.insert .unpack).withoutUnpack = set.withoutUnpack := by
  by_cases hmem : Feature.unpack ∈ set.features
  · rw [insert_of_mem hmem]
  · rw [insert_of_not_mem hmem]
    change (set.features ++ [Feature.unpack]).filter _ = _
    rw [List.filter_append]
    exact List.append_nil _

section Insert

variable {set other : FeatureSet}

theorem mem_iff_of_withoutUnpack_eq {feature : Feature} (hfeature : feature ≠ .unpack)
    (hsame : set.withoutUnpack = other.withoutUnpack) :
    feature ∈ set.features ↔ feature ∈ other.features := by
  have hmem : ∀ some : FeatureSet, feature ∈ some.features ↔ feature ∈ some.withoutUnpack := by
    intro some
    simp [withoutUnpack, hfeature]
  rw [hmem set, hmem other, hsame]

theorem withoutUnpack_insert (hsame : set.withoutUnpack = other.withoutUnpack)
    (feature : Feature) :
    (set.insert feature).withoutUnpack = (other.insert feature).withoutUnpack := by
  induction feature using Feature.induction_on_dependencies generalizing set other with
  | step feature ih =>
      by_cases hfeature : feature = .unpack
      · subst hfeature
        rw [withoutUnpack_insert_unpack, withoutUnpack_insert_unpack, hsame]
      · have hiff := mem_iff_of_withoutUnpack_eq hfeature hsame
        by_cases hmem : feature ∈ set.features
        · rw [insert_of_mem hmem, insert_of_mem (hiff.mp hmem), hsame]
        · have hdependencies : (set.extend feature.dependencies).withoutUnpack =
              (other.extend feature.dependencies).withoutUnpack := by
            refine List.foldl_rel (r := fun set other : FeatureSet =>
              set.withoutUnpack = other.withoutUnpack) hsame ?_
            intro dependency hdependency set other hsame
            exact ih dependency hdependency hsame
          rw [insert_of_not_mem hmem, insert_of_not_mem fun hmem' => hmem (hiff.mpr hmem')]
          change List.filter _ (_ ++ _) = List.filter _ (_ ++ _)
          rw [List.filter_append, List.filter_append]
          exact congrArg (· ++ _) hdependencies

end Insert

end FeatureSet

/-! Diagnostics without complaints about the target. -/

def Diagnostic.isAboutTarget (diagnostic : Diagnostic) : Bool :=
  match diagnostic.problem with
  | .unsupportedOperator .. => true
  | _ => false

def Log.withoutTarget (entries : List Diagnostic) : List Diagnostic :=
  entries.filter fun diagnostic => !diagnostic.isAboutTarget

theorem Log.withoutTarget_append (entries more : List Diagnostic) :
    withoutTarget (entries ++ more) = withoutTarget entries ++ withoutTarget more :=
  List.filter_append entries more

/-! Two targets side by side. -/

structure UnitState.SameButTarget (state state' : UnitState) : Prop where
  identities_eq : state.identities = state'.identities
  features_eq : state.features.withoutUnpack = state'.features.withoutUnpack
  log_eq : Log.withoutTarget state.log.entries = Log.withoutTarget state'.log.entries

/-- Only what belongs to the target may differ, and neither run fails alone. -/
def Likeness.upToTarget : Likeness where
  states := UnitState.SameButTarget
  errors := Eq
  excused _ := False
  texts := Eq
  identities := Eq
  values := Lua.Expr.SameButUnpackers

namespace Environment

open Lower Coupling

def withTarget (env : Environment) (target : Lua.Target) : Environment :=
  { env with options := { env.options with luaTarget := target } }

section Retargeted

variable (env : Environment)

theorem upToTarget_report (span : Span) (problem : Problem) :
    Likeness.upToTarget.Couples Eq (env.report span problem) (env.report span problem) := by
  intro state state' hsame
  rw [outcome_report, outcome_report]
  refine .ok rfl { hsame with log_eq := ?_ }
  rw [Log.entries_add, Log.entries_add, Log.withoutTarget_append, Log.withoutTarget_append,
    hsame.log_eq]

theorem outcome_reportUnsupported (operator : MappedOperator) (span : Span) (state : UnitState) :
    ∃ after, (env.reportUnsupported operator span).outcome state = (.ok (), after) ∧
      after.identities = state.identities ∧ after.features = state.features ∧
      Log.withoutTarget after.log.entries = Log.withoutTarget state.log.entries := by
  simp only [reportUnsupported]
  split
  · exact ⟨state, rfl, rfl, rfl, rfl⟩
  · refine ⟨_, rfl, rfl, rfl, ?_⟩
    simp [Log.withoutTarget, Log.add, Diagnostic.located, Diagnostic.isAboutTarget]

theorem upToTarget_reportUnsupported (env' : Environment) (operator : MappedOperator)
    (span : Span) :
    Likeness.upToTarget.Couples Eq (env.reportUnsupported operator span)
      (env'.reportUnsupported operator span) := by
  intro state state' hsame
  obtain ⟨after, hrun, hidentities, hfeatures, hlog⟩ :=
    env.outcome_reportUnsupported operator span state
  obtain ⟨after', hrun', hidentities', hfeatures', hlog'⟩ :=
    env'.outcome_reportUnsupported operator span state'
  rw [hrun, hrun']
  refine .ok rfl ⟨?_, ?_, ?_⟩
  · rw [hidentities, hidentities', hsame.identities_eq]
  · rw [hfeatures, hfeatures', hsame.features_eq]
  · rw [hlog, hlog', hsame.log_eq]

theorem upToTarget_require (feature : Feature) :
    Likeness.upToTarget.Couples Eq (Lower.require feature) (Lower.require feature) := by
  intro state state' hsame
  rw [outcome_require, outcome_require]
  refine .ok rfl { hsame with features_eq := ?_ }
  exact FeatureSet.withoutUnpack_insert hsame.features_eq feature

theorem upToTarget_identify (symbol : Symbol) (span : Span) :
    Likeness.upToTarget.Couples Eq (Lower.identify symbol span) (Lower.identify symbol span) := by
  intro state state' hsame
  rw [outcome_identify, outcome_identify, hsame.identities_eq]
  generalize state'.identities.identify symbol (some span) = result
  obtain ⟨error | identity, table⟩ := result
  · exact .error rfl { hsame with identities_eq := rfl }
  · exact .ok rfl { hsame with identities_eq := rfl }

/-- Every target has a function to spread a table, and the polyfill is all that may have to be
required for it. -/
theorem outcome_unpacker (state : UnitState) :
    ∃ function after, env.unpacker.outcome state = (.ok function, after) ∧
      function.isUnpacker = true ∧ after.identities = state.identities ∧
      after.features.withoutUnpack = state.features.withoutUnpack ∧ after.log = state.log := by
  unfold unpacker
  cases hfunction : env.options.luaTarget.unpack? with
  | some function =>
      exact ⟨function, state, rfl, Lua.Target.isUnpacker_of_unpack? hfunction, rfl, rfl, rfl⟩
  | none =>
      exact ⟨_, _, rfl, by decide, rfl, state.features.withoutUnpack_insert_unpack, rfl⟩

theorem upToTarget_unpack (env' : Environment) {value value' : Lua.Expr}
    (hvalue : Lua.Expr.SameButUnpackers value value') :
    Likeness.upToTarget.Couples Lua.Expr.SameButUnpackers
      (do return Lua.Expr.call (← env.unpacker) [value])
      (do return Lua.Expr.call (← env'.unpacker) [value']) := by
  intro state state' hsame
  obtain ⟨function, after, hrun, hfunction, hidentities, hfeatures, hlog⟩ :=
    env.outcome_unpacker state
  obtain ⟨function', after', hrun', hfunction', hidentities', hfeatures', hlog'⟩ :=
    env'.outcome_unpacker state'
  rw [outcome_bind, outcome_bind, hrun, hrun']
  refine .ok (Lua.Expr.sameButUnpackers_call hfunction hfunction' hvalue) ⟨?_, ?_, ?_⟩
  · rw [hidentities, hidentities', hsame.identities_eq]
  · rw [hfeatures, hfeatures', hsame.features_eq]
  · rw [hlog, hlog', hsame.log_eq]

theorem mirrors_upToTarget (target : Lua.Target) :
    Mirrors .upToTarget env (env.withTarget target) where
  checker := rfl
  bindings := rfl
  report := env.upToTarget_report
  reportUnsupported := env.upToTarget_reportUnsupported _
  require := upToTarget_require
  identify := upToTarget_identify
  mustMangle halike :=
    couples_mustMangle env.upToTarget_report (fun _ => rfl) halike.1 halike.2
  unpack := env.upToTarget_unpack _
  errors_refl _ := rfl
  errors_endless _ := rfl
  texts_refl _ := rfl
  identities_refl _ := rfl
  congruence := Lua.Expr.congruence_sameButUnpackers
  ident := by
    rintro ⟨text, source, identity, span⟩ ⟨text', source', identity', span'⟩ htext hsource hidentity
      hspan
    cases htext
    cases hspan
    obtain rfl : source = source' := by
      cases hsource with
      | none => rfl
      | some hname => exact congrArg some hname
    obtain rfl : identity = identity' := by
      cases hidentity with
      | none => rfl
      | some hgiven => exact congrArg some hgiven
    exact rfl
  access := by
    intro symbol path path' hpath hpath'
    cases hpath.symm.trans hpath'
    exact rfl

end Retargeted

/-- For another target, lowering fails with the same error or gives the same code but for the
functions that spread tables.  It gives the same identities, requires the same other features in
the same order, and reports the same but for operators that one of the targets does not have. -/
theorem lower_target_irrelevant (env : Environment) (target : Lua.Target) (expr : Source.Expr)
    (start : UnitState) :
    ∃ answer answer' after after' reports reports',
      (env.lower expr).outcome start = (answer, after) ∧
      ((env.withTarget target).lower expr).outcome start = (answer', after') ∧
      answer.map Lua.Expr.withAnyUnpacker = answer'.map Lua.Expr.withAnyUnpacker ∧
      after.identities = after'.identities ∧
      after.features.withoutUnpack = after'.features.withoutUnpack ∧
      after.log.entries = start.log.entries ++ reports ∧
      after'.log.entries = start.log.entries ++ reports' ∧
      Log.withoutTarget reports = Log.withoutTarget reports' := by
  have halike : expr.Alike Likeness.upToTarget.Identifiers expr :=
    Source.Expr.alike_refl (fun _ => ⟨⟨rfl, rfl, rfl, rfl⟩, rfl⟩) expr
  have houtcomes := (env.mirrors_upToTarget target).couples_lower halike
    (⟨rfl, rfl, rfl⟩ : start.SameButTarget start)
  have hgathers := env.onlyGathers_lower expr start
  have hgathers' := (env.withTarget target).onlyGathers_lower expr start
  generalize (env.lower expr).outcome start = outcome at houtcomes hgathers ⊢
  generalize ((env.withTarget target).lower expr).outcome start = outcome'
    at houtcomes hgathers' ⊢
  obtain ⟨answer, after⟩ := outcome
  obtain ⟨answer', after'⟩ := outcome'
  obtain ⟨reports, hreports⟩ := hgathers.exists_reports
  obtain ⟨reports', hreports'⟩ := hgathers'.exists_reports
  obtain ⟨hanswers, hsame⟩ :
      answer.map Lua.Expr.withAnyUnpacker = answer'.map Lua.Expr.withAnyUnpacker ∧
        after.SameButTarget after' := by
    cases houtcomes with
    | ok hvalues hsame => exact ⟨congrArg Except.ok hvalues, hsame⟩
    | error herrors hsame => exact ⟨congrArg Except.error herrors, hsame⟩
    | excused hexcused => exact hexcused.elim
  refine ⟨answer, answer', after, after', reports, reports', rfl, rfl, hanswers,
    hsame.identities_eq, hsame.features_eq, hreports, hreports', ?_⟩
  have hlog := hsame.log_eq
  rw [hreports, hreports', Log.withoutTarget_append, Log.withoutTarget_append] at hlog
  exact List.append_cancel_left hlog

end Environment

end LuaLowering
