import LuaLowering.Proofs.Lowering.Gathering
import LuaLowering.Proofs.Lowering.Mirror
import LuaLowering.Proofs.Lowering.Names

namespace LuaLowering

/-! Names do not decide anything: a program with other names is lowered in the same way, and what
comes out differs in names only. -/

/-! What is left when names are taken away. -/

def Lua.Ident.withoutNames (word : Lua.Ident) : Lua.Ident :=
  { word with text := "", sourceName := none }

def Lua.Expr.withoutNames (expr : Lua.Expr) : Lua.Expr :=
  expr.map Ident.withoutNames fun _ => ""

def LoweringError.withoutNames : LoweringError → LoweringError
  | endlessScopes _ => endlessScopes ""
  | error => error

def Diagnostic.isAboutName (diagnostic : Diagnostic) : Bool :=
  match diagnostic.problem with
  | .unspellableAmbient _ => true
  | _ => false

def Log.withoutNames (entries : List Diagnostic) : List Diagnostic :=
  entries.filter fun diagnostic => !diagnostic.isAboutName

theorem Log.withoutNames_append (entries more : List Diagnostic) :
    withoutNames (entries ++ more) = withoutNames entries ++ withoutNames more :=
  List.filter_append entries more

structure UnitState.SameButNames (state state' : UnitState) : Prop where
  identities_eq : state.identities = state'.identities
  features_eq : state.features = state'.features
  log_eq : Log.withoutNames state.log.entries = Log.withoutNames state'.log.entries

namespace UnitState.SameButNames

theorem refl (state : UnitState) : SameButNames state state := ⟨rfl, rfl, rfl⟩

theorem symm {state state' : UnitState} (hsame : state.SameButNames state') :
    state'.SameButNames state :=
  ⟨hsame.identities_eq.symm, hsame.features_eq.symm, hsame.log_eq.symm⟩

theorem trans {first second third : UnitState} (hfirst : first.SameButNames second)
    (hsecond : second.SameButNames third) : first.SameButNames third :=
  ⟨hfirst.identities_eq.trans hsecond.identities_eq, hfirst.features_eq.trans hsecond.features_eq,
    hfirst.log_eq.trans hsecond.log_eq⟩

end UnitState.SameButNames

/-- Names may differ and nothing else; in particular neither run fails alone. -/
def Likeness.upToNames : Likeness where
  states := UnitState.SameButNames
  errors error error' := error.withoutNames = error'.withoutNames
  excused _ := False
  texts _ _ := True
  identities := Eq
  values := Lua.Expr.SameUnder Lua.Ident.withoutNames fun _ => ""

/-! Reads through tables. -/

namespace ExportPath

theorem withoutNames_root (name : String) :
    (root name).withoutNames = .ident { text := "" } := by
  unfold root
  split
  · rfl
  · split
    · rfl
    · rfl

theorem withoutNames_foldl_field {table table' : Lua.Expr} {keys keys' : List String}
    (htable : table.withoutNames = table'.withoutNames) (hlength : keys.length = keys'.length) :
    (keys.foldl Lua.Expr.field table).withoutNames =
      (keys'.foldl Lua.Expr.field table').withoutNames := by
  induction keys generalizing table table' keys' with
  | nil =>
      cases keys' with
      | nil => exact htable
      | cons => contradiction
  | cons key keys ih =>
      cases keys' with
      | nil => contradiction
      | cons key' keys' =>
          rw [List.foldl_cons, List.foldl_cons]
          apply ih
          · exact Lua.Expr.congruence_sameUnder.index htable rfl
          · exact Nat.succ.inj hlength

theorem withoutNames_table {path path' : ExportPath}
    (hlength : path.segments.length = path'.segments.length) :
    path.table.withoutNames = path'.table.withoutNames := by
  obtain ⟨segments⟩ := path
  obtain ⟨segments'⟩ := path'
  cases segments with
  | nil =>
      cases segments' with
      | nil => rfl
      | cons => contradiction
  | cons first rest =>
      cases segments' with
      | nil => contradiction
      | cons first' rest' =>
          apply withoutNames_foldl_field
          · rw [withoutNames_root, withoutNames_root]
          · exact Nat.succ.inj hlength

end ExportPath

namespace Environment

open Lower Coupling

def withChecker (env : Environment) (checker : Checker) : Environment :=
  { env with checker := checker }

/-- What is reported on the way is about the name. -/
theorem outcome_mustMangle (env : Environment) (identifier : Identifier) (symbol : Option Symbol)
    (state : UnitState) :
    ∃ mangled after, (env.mustMangle identifier symbol).outcome state = (.ok mangled, after) ∧
      state.SameButNames after := by
  cases symbol with
  | none => exact ⟨_, state, rfl, .refl state⟩
  | some symbol =>
      simp only [mustMangle]
      split
      · split
        · exact ⟨_, state, rfl, .refl state⟩
        · refine ⟨_, _, rfl, rfl, rfl, ?_⟩
          simp [Log.withoutNames, Log.add, Diagnostic.located, Diagnostic.isAboutName]
      · exact ⟨_, state, rfl, .refl state⟩

section Renamed

variable (env : Environment)

theorem upToNames_report (span : Span) (problem : Problem) :
    Likeness.upToNames.Couples Eq (env.report span problem) (env.report span problem) := by
  intro state state' hsame
  rw [outcome_report, outcome_report]
  refine .ok rfl { hsame with log_eq := ?_ }
  rw [Log.entries_add, Log.entries_add, Log.withoutNames_append, Log.withoutNames_append,
    hsame.log_eq]

theorem upToNames_require (feature : Feature) :
    Likeness.upToNames.Couples Eq (Lower.require feature) (Lower.require feature) := by
  intro state state' hsame
  rw [outcome_require, outcome_require]
  exact .ok rfl { hsame with features_eq := by rw [hsame.features_eq] }

theorem upToNames_identify (symbol : Symbol) (span : Span) :
    Likeness.upToNames.Couples Eq (Lower.identify symbol span) (Lower.identify symbol span) := by
  intro state state' hsame
  rw [outcome_identify, outcome_identify, hsame.identities_eq]
  generalize state'.identities.identify symbol (some span) = result
  obtain ⟨error | identity, table⟩ := result
  · exact .error rfl { hsame with identities_eq := rfl }
  · exact .ok rfl { hsame with identities_eq := rfl }

theorem upToNames_mustMangle (env' : Environment) (identifier identifier' : Identifier)
    (symbol : Option Symbol) :
    Likeness.upToNames.Couples (fun _ _ => True) (env.mustMangle identifier symbol)
      (env'.mustMangle identifier' symbol) := by
  intro state state' hsame
  obtain ⟨mangled, after, hrun, hafter⟩ := env.outcome_mustMangle identifier symbol state
  obtain ⟨mangled', after', hrun', hafter'⟩ := env'.outcome_mustMangle identifier' symbol state'
  rw [hrun, hrun']
  exact .ok True.intro (hafter.symm.trans (hsame.trans hafter'))

theorem mirrors_upToNames {checker : Checker}
    (hanonymous : env.checker.anonymous = checker.anonymous) :
    Mirrors .upToNames env (env.withChecker checker) where
  checker := hanonymous
  bindings := rfl
  report := env.upToNames_report
  reportUnsupported := couples_reportUnsupported env.upToNames_report
  require := upToNames_require
  identify := upToNames_identify
  mustMangle {identifier identifier'} _ := env.upToNames_mustMangle _ identifier identifier'
  unpack := couples_unpack upToNames_require Lua.Expr.congruence_sameUnder
  errors_refl _ := rfl
  errors_endless _ := rfl
  texts_refl _ := True.intro
  identities_refl _ := rfl
  congruence := Lua.Expr.congruence_sameUnder
  ident := by
    rintro ⟨text, source, identity, span⟩ ⟨text', source', identity', span'⟩ _ _ hidentity hspan
    cases hspan
    cases hidentity with
    | none => exact rfl
    | some hidentity =>
        cases hidentity
        exact rfl
  access := by
    intro symbol path path' hpath hpath'
    have hpaths := Checker.exportPath_of_anonymous_eq hanonymous symbol
    rw [hpath] at hpaths
    change checker.exportPath symbol = _ at hpath'
    rw [hpath'] at hpaths
    cases hpaths with
    | some hlength =>
        exact Lua.Expr.congruence_sameUnder.index (ExportPath.withoutNames_table hlength) rfl

end Renamed

/-- Answers that differ in names only. -/
inductive AnswersAlike : Except LoweringError Lua.Expr → Except LoweringError Lua.Expr → Prop
  | ok {value value' : Lua.Expr} (hvalues : value.withoutNames = value'.withoutNames) :
      AnswersAlike (.ok value) (.ok value')
  | error {error error' : LoweringError} (herrors : error.withoutNames = error'.withoutNames) :
      AnswersAlike (.error error) (.error error')

/-- With other names for symbols and scopes, and with identifiers written in another way, lowering
does the same: it answers alike, gives the same identities, requires the same features and reports
the same, except for what it has to say about names. -/
theorem lower_names_irrelevant {env : Environment} {checker : Checker} {expr expr' : Source.Expr}
    (hchecker : env.checker.anonymous = checker.anonymous)
    (hexpr : expr.Alike Identifier.Renames expr') (start : UnitState) :
    ∃ answer answer' after after' reports reports',
      (env.lower expr).outcome start = (answer, after) ∧
      ((env.withChecker checker).lower expr').outcome start = (answer', after') ∧
      AnswersAlike answer answer' ∧
      after.identities = after'.identities ∧
      after.features = after'.features ∧
      after.log.entries = start.log.entries ++ reports ∧
      after'.log.entries = start.log.entries ++ reports' ∧
      Log.withoutNames reports = Log.withoutNames reports' := by
  have halike : expr.Alike Likeness.upToNames.Identifiers expr' :=
    hexpr.mono fun _ _ hrenames => ⟨hrenames, True.intro⟩
  have houtcomes :=
    (env.mirrors_upToNames hchecker).couples_lower halike (UnitState.SameButNames.refl start)
  have hgathers := env.onlyGathers_lower expr start
  have hgathers' := (env.withChecker checker).onlyGathers_lower expr' start
  generalize (env.lower expr).outcome start = outcome at houtcomes hgathers ⊢
  generalize ((env.withChecker checker).lower expr').outcome start = outcome'
    at houtcomes hgathers' ⊢
  obtain ⟨answer, after⟩ := outcome
  obtain ⟨answer', after'⟩ := outcome'
  obtain ⟨reports, hreports⟩ := hgathers.exists_reports
  obtain ⟨reports', hreports'⟩ := hgathers'.exists_reports
  obtain ⟨halike, hsame⟩ : AnswersAlike answer answer' ∧ after.SameButNames after' := by
    cases houtcomes with
    | ok hvalues hsame => exact ⟨.ok hvalues, hsame⟩
    | error herrors hsame => exact ⟨.error herrors, hsame⟩
    | excused hexcused => exact hexcused.elim
  refine ⟨answer, answer', after, after', reports, reports', rfl, rfl, halike,
    hsame.identities_eq, hsame.features_eq, hreports, hreports', ?_⟩
  have hlog := hsame.log_eq
  rw [hreports, hreports', Log.withoutNames_append, Log.withoutNames_append] at hlog
  exact List.append_cancel_left hlog

/-- A pair of values: one exported from a namespace, one declared without a definition. -/
def pairing : Environment :=
  ofProgram (Program.build
    [.file "main.ts" true, .library .extensions "$multi",
      .nameSpace ⟨0⟩ "inner" { exported := true }, .declare ⟨2⟩ "x" { exported := true },
      .declare ⟨0⟩ "y" { ambient := true }, .reference ⟨0⟩ "$multi", .reference ⟨2⟩ "x",
      .reference ⟨3⟩ "y"])

def pairCall (rename : String → String) : Source.Expr :=
  .call (.ident { node := ⟨0⟩, text := rename "$multi", span := .ofLength 0 6 })
    [.ident { node := ⟨1⟩, text := rename "x", span := .ofLength 7 1 },
      .ident { node := ⟨2⟩, text := rename "y", span := .ofLength 9 1 }] (.ofLength 0 6)

def dashed (name : String) : String := name ++ "-"

def dashedChecker : Checker :=
  { pairing.checker with
    symbolName := fun symbol => dashed (pairing.checker.symbolName symbol)
    scopeInfo := fun scope =>
      { pairing.checker.scopeInfo scope with
        name := dashed (pairing.checker.scopeInfo scope).name } }

/-- The marker is known under its other name, and only a complaint about a name is added. -/
theorem lower_names_irrelevant_dashed :
    ∃ value value' after after',
      (pairing.lower (pairCall id)).outcome {} = (.ok value, after) ∧
      ((pairing.withChecker dashedChecker).lower (pairCall dashed)).outcome {} =
        (.ok value', after') ∧
      value.withoutNames = value'.withoutNames ∧
      after.identities = after'.identities ∧
      after.log.entries.length = 0 ∧ after'.log.entries.length = 1 := by
  have hexpr : (pairCall id).Alike Identifier.Renames (pairCall dashed) :=
    .call _ (.ident ⟨rfl, rfl, rfl, by decide⟩)
      (.cons (.ident ⟨rfl, rfl, rfl, by decide⟩)
        (.cons (.ident ⟨rfl, rfl, rfl, by decide⟩) .nil))
  have hchecker : pairing.checker.anonymous = dashedChecker.anonymous := rfl
  obtain ⟨value, after, hrun, hlength⟩ : ∃ value after,
      (pairing.lower (pairCall id)).outcome {} = (.ok value, after) ∧
        after.log.entries.length = 0 :=
    ⟨_, _, rfl, rfl⟩
  obtain ⟨value', after', hrun', hlength'⟩ : ∃ value after,
      ((pairing.withChecker dashedChecker).lower (pairCall dashed)).outcome {} =
        (.ok value, after) ∧ after.log.entries.length = 1 :=
    ⟨_, _, rfl, rfl⟩
  obtain ⟨_, _, _, _, _, _, hfirst, hsecond, halike, hidentities, _⟩ :=
    lower_names_irrelevant hchecker hexpr {}
  rw [hrun] at hfirst
  rw [hrun'] at hsecond
  cases hfirst
  cases hsecond
  cases halike with
  | ok hvalues =>
      exact ⟨value, value', after, after', hrun, hrun', hvalues, hidentities, hlength, hlength'⟩

end Environment

end LuaLowering
