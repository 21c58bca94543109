import LuaLowering.Proofs.Lowering.Reading
import LuaLowering.Proofs.Polyfill.Assembly
import Mathlib.Data.Set.Insert

namespace LuaLowering

/-! The polyfills that an expression asks for: those of the names that lowering resolves, and the
one for spreads. -/

namespace Lower

variable {α β : Type}

/-- Unless it fails, the step requires the wanted features, in some order, and no others. -/
def Requires (step : Lower α) (wanted : Set Feature) : Prop :=
  ∀ ⦃state value after⦄, outcome step state = (.ok value, after) →
    ∃ requests, after.features = state.features.extend requests ∧
      ∀ feature, feature ∈ requests ↔ feature ∈ wanted

namespace Requires

variable {step : Lower α} {next : α → Lower β} {first second wanted : Set Feature}

theorem of_features_eq
    (hstep : ∀ ⦃state value after⦄, outcome step state = (.ok value, after) →
      after.features = state.features) : Requires step ∅ := by
  intro state value after hrun
  exact ⟨[], hstep hrun, by simp⟩

theorem pure (value : α) : Requires (Pure.pure value : Lower α) ∅ := by
  apply of_features_eq
  intro state returned after hrun
  cases hrun
  rfl

theorem throw (error : LoweringError) (wanted : Set Feature) :
    Requires (MonadExcept.throw error : Lower α) wanted := by
  intro state returned after hrun
  cases hrun

theorem bind (hstep : Requires step first) (hnext : ∀ value, Requires (next value) second) :
    Requires (step >>= next) (first ∪ second) := by
  intro state result after hrun
  obtain ⟨value, between, hfirst, hsecond⟩ := outcome_bind_eq_ok.mp hrun
  obtain ⟨requests, hrequests, hmem⟩ := hstep hfirst
  obtain ⟨more, hmore, hmem'⟩ := hnext value hsecond
  refine ⟨requests ++ more, ?_, ?_⟩
  · rw [hmore, hrequests, FeatureSet.extend_append]
  · intro feature
    rw [List.mem_append, hmem, hmem', Set.mem_union]

theorem nothing_bind (hstep : Requires step ∅) (hnext : ∀ value, Requires (next value) wanted) :
    Requires (step >>= next) wanted := by
  have hbind := bind hstep hnext
  rwa [Set.empty_union] at hbind

theorem bind_nothing (hstep : Requires step wanted) (hnext : ∀ value, Requires (next value) ∅) :
    Requires (step >>= next) wanted := by
  have hbind := bind hstep hnext
  rwa [Set.union_empty] at hbind

theorem identify (symbol : Symbol) (span : Span) :
    Requires (Lower.identify symbol span) ∅ := by
  apply of_features_eq
  intro state value after hrun
  rw [outcome_identify] at hrun
  obtain ⟨_, rfl⟩ := Prod.mk.inj hrun
  rfl

theorem require (feature : Feature) : Requires (Lower.require feature) {feature} := by
  intro state value after hrun
  cases hrun
  exact ⟨[feature], rfl, by simp⟩

end Requires

theorem Keeps.requires {step : Lower α} (hstep : Keeps step) : Requires step ∅ := by
  apply Requires.of_features_eq
  intro state value after hrun
  have hafter := hstep state
  rw [hrun] at hafter
  exact congrArg UnitState.features hafter

theorem OnlyReports.requires {step : Lower α} (hstep : OnlyReports step) : Requires step ∅ := by
  apply Requires.of_features_eq
  intro state value after hrun
  obtain ⟨returned, reports, hreports⟩ := hstep state
  cases hreports.symm.trans hrun
  rfl

end Lower

namespace Environment

open Lower

/-! The parts of an expression that lowering comes to. -/

inductive Visits (env : Environment) : Source.Expr → Source.Expr → Prop
  | self (expr : Source.Expr) : Visits env expr expr
  | callee {callee part : Source.Expr} {arguments : List Source.Expr} {span : Span}
      (hmarker : env.calleeMarker callee = none ∨ env.calleeMarker callee = some .vararg)
      (hvisits : Visits env callee part) : Visits env (.call callee arguments span) part
  | argument {callee argument part : Source.Expr} {arguments : List Source.Expr} {span : Span}
      (hmarker : env.calleeMarker callee ≠ some .range) (hmem : argument ∈ arguments)
      (hvisits : Visits env argument part) : Visits env (.call callee arguments span) part
  | operand {inner part : Source.Expr} {span : Span} (hvarargs : env.isVarargs inner = false)
      (hvisits : Visits env inner part) : Visits env (.spread inner span) part

/-- What is asked for by a part itself, apart from what is asked for inside it. -/
inductive Asks (env : Environment) : Source.Expr → Feature → Prop
  | builtin {identifier : Identifier} {feature : Feature} {notes : Notes}
      (hresolved : env.IsResolved identifier)
      (hkind : env.classify identifier = .builtin feature notes) :
      Asks env (.ident identifier) .promise
  | standard {identifier : Identifier} {symbol : Option Symbol} {type : Ty} {notes : Notes}
      {feature : Feature} (hresolved : env.IsResolved identifier)
      (hkind : env.classify identifier = .standard symbol type notes)
      (hfeature : env.bindings.builtins.typeFeature? env.checker type = some feature) :
      Asks env (.ident identifier) feature
  | spread {inner : Source.Expr} {span : Span} (hvarargs : env.isVarargs inner = false)
      (htarget : env.options.luaTarget = .universal) : Asks env (.spread inner span) .unpack

/-- All that an expression asks for. -/
def wanted (env : Environment) (expr : Source.Expr) : Set Feature :=
  { feature | ∃ part, env.Visits expr part ∧ env.Asks part feature }

def wantedAll (env : Environment) (exprs : List Source.Expr) : Set Feature :=
  { feature | ∃ expr ∈ exprs, feature ∈ env.wanted expr }

section Wanted

variable {env : Environment} {expr callee inner : Source.Expr} {arguments : List Source.Expr}
  {span : Span}

theorem wanted_eq_empty
    (hnothing : ∀ part feature, env.Visits expr part → ¬ env.Asks part feature) :
    env.wanted expr = ∅ := by
  rw [Set.eq_empty_iff_forall_notMem]
  intro feature hwanted
  obtain ⟨part, hvisits, hasks⟩ := hwanted
  exact hnothing part feature hvisits hasks

theorem wanted_ident (identifier : Identifier) :
    env.wanted (.ident identifier) = { feature | env.Asks (.ident identifier) feature } := by
  ext feature
  constructor
  · intro hwanted
    obtain ⟨part, hvisits, hasks⟩ := hwanted
    cases hvisits
    exact hasks
  · intro hasks
    exact ⟨_, .self _, hasks⟩

theorem wanted_ident_of_not_isResolved {identifier : Identifier}
    (hother : ¬ env.IsResolved identifier) : env.wanted (.ident identifier) = ∅ := by
  apply wanted_eq_empty
  intro part feature hvisits hasks
  cases hvisits
  cases hasks with
  | builtin hresolved => exact hother hresolved
  | standard hresolved => exact hother hresolved

theorem wanted_spread_varargs (hvarargs : env.isVarargs inner = true) :
    env.wanted (.spread inner span) = ∅ := by
  apply wanted_eq_empty
  intro part feature hvisits hasks
  cases hvisits with
  | self =>
      cases hasks with
      | spread hother => cases hvarargs.symm.trans hother
  | operand hother => cases hvarargs.symm.trans hother

theorem wanted_spread (hvarargs : env.isVarargs inner = false) :
    env.wanted (.spread inner span) =
      env.wanted inner ∪ { feature | feature = .unpack ∧ env.options.luaTarget = .universal } := by
  ext feature
  constructor
  · intro hwanted
    obtain ⟨part, hvisits, hasks⟩ := hwanted
    cases hvisits with
    | self =>
        cases hasks with
        | spread _ htarget => exact Or.inr ⟨rfl, htarget⟩
    | operand _ hvisits => exact Or.inl ⟨part, hvisits, hasks⟩
  · intro hwanted
    rcases hwanted with ⟨part, hvisits, hasks⟩ | ⟨rfl, htarget⟩
    · exact ⟨part, .operand hvarargs hvisits, hasks⟩
    · exact ⟨_, .self _, .spread hvarargs htarget⟩

theorem wanted_call_range (hmarker : env.calleeMarker callee = some .range) :
    env.wanted (.call callee arguments span) = ∅ := by
  apply wanted_eq_empty
  intro part feature hvisits hasks
  cases hvisits with
  | self => cases hasks
  | callee hcallee => simp [hmarker] at hcallee
  | argument hother => exact hother hmarker

theorem wanted_call_marker {marker : Marker} (hmarker : env.calleeMarker callee = some marker)
    (hsanctioned : marker.isSanctionedAt .callee) :
    env.wanted (.call callee arguments span) = env.wantedAll arguments := by
  have hrange : env.calleeMarker callee ≠ some .range := by
    intro hrange
    cases hmarker.symm.trans hrange
    cases hsanctioned
  ext feature
  constructor
  · intro hwanted
    obtain ⟨part, hvisits, hasks⟩ := hwanted
    cases hvisits with
    | self => cases hasks
    | callee hcallee =>
        rcases hcallee with hcallee | hcallee
        · cases hmarker.symm.trans hcallee
        · cases hmarker.symm.trans hcallee
          cases hsanctioned
    | argument _ hmem hvisits => exact ⟨_, hmem, part, hvisits, hasks⟩
  · intro hwanted
    obtain ⟨argument, hmem, part, hvisits, hasks⟩ := hwanted
    exact ⟨part, .argument hrange hmem hvisits, hasks⟩

theorem wanted_call_plain
    (hmarker : env.calleeMarker callee = none ∨ env.calleeMarker callee = some .vararg) :
    env.wanted (.call callee arguments span) = env.wanted callee ∪ env.wantedAll arguments := by
  have hrange : env.calleeMarker callee ≠ some .range := by
    intro hrange
    simp [hrange] at hmarker
  ext feature
  constructor
  · intro hwanted
    obtain ⟨part, hvisits, hasks⟩ := hwanted
    cases hvisits with
    | self => cases hasks
    | callee _ hvisits => exact Or.inl ⟨part, hvisits, hasks⟩
    | argument _ hmem hvisits => exact Or.inr ⟨_, hmem, part, hvisits, hasks⟩
  · intro hwanted
    rcases hwanted with ⟨part, hvisits, hasks⟩ | ⟨argument, hmem, part, hvisits, hasks⟩
    · exact ⟨part, .callee hmarker hvisits, hasks⟩
    · exact ⟨part, .argument hrange hmem hvisits, hasks⟩

theorem wantedAll_nil : env.wantedAll [] = ∅ := by
  ext feature
  simp [wantedAll]

theorem wantedAll_cons (first : Source.Expr) (rest : List Source.Expr) :
    env.wantedAll (first :: rest) = env.wanted first ∪ env.wantedAll rest := by
  ext feature
  simp [wantedAll]

end Wanted

/-! Identifiers. -/

section Identifiers

variable (env : Environment)

theorem requires_requireTypeFeature (type : Ty) :
    Requires (env.requireTypeFeature type)
      { feature | env.bindings.builtins.typeFeature? env.checker type = some feature } := by
  unfold requireTypeFeature
  cases env.bindings.builtins.typeFeature? env.checker type with
  | none =>
      have hnone : { feature : Feature | none = some feature } = ∅ := by simp
      rw [hnone]
      exact .pure _
  | some requested =>
      have hsome : { feature : Feature | some requested = some feature } = {requested} := by
        ext feature
        simp [eq_comm]
      rw [hsome]
      exact .require requested

theorem requires_identifyAll (symbol : Option Symbol) (span : Span) :
    Requires (identifyAll symbol span) ∅ := by
  cases symbol with
  | none => exact .pure _
  | some symbol => exact .nothing_bind (.identify symbol span) fun _ => .pure _

theorem requires_lowerName (identifier : Identifier) (symbol : Option Symbol) :
    Requires (env.lowerName identifier symbol) ∅ :=
  .nothing_bind (env.onlyReports_mustMangle identifier symbol).requires fun _ =>
    .nothing_bind (requires_identifyAll symbol identifier.span) fun _ => .pure _

/-- What is asked for by an identifier of a kind. -/
def wantedBy : Classification → Set Feature
  | .continuation => ∅
  | .marker _ => ∅
  | .builtin _ _ => {.promise}
  | .standard _ type _ =>
      { feature | env.bindings.builtins.typeFeature? env.checker type = some feature }

variable {env} {identifier : Identifier}

theorem wanted_ident_of_isResolved (hresolved : env.IsResolved identifier) :
    env.wanted (.ident identifier) = env.wantedBy (env.classify identifier) := by
  rw [wanted_ident]
  ext feature
  constructor
  · intro hasks
    cases hasks with
    | builtin _ hkind =>
        rw [hkind]
        exact rfl
    | standard _ hkind hfeature =>
        rw [hkind]
        exact hfeature
  · intro hwanted
    cases hkind : env.classify identifier with
    | continuation | marker =>
        rw [hkind] at hwanted
        cases hwanted
    | builtin =>
        rw [hkind] at hwanted
        cases hwanted
        exact .builtin hresolved hkind
    | standard =>
        rw [hkind] at hwanted
        exact .standard hresolved hkind hwanted

theorem requires_lowerIdentifier (hresolved : env.IsResolved identifier) :
    Requires (env.lowerIdentifier identifier) (env.wanted (.ident identifier)) := by
  have hspec := env.classifies_classify identifier
  rw [wanted_ident_of_isResolved hresolved, lowerIdentifier]
  generalize env.classify identifier = kind at hspec ⊢
  cases hspec with
  | continuation => exact .pure _
  | marker => exact .nothing_bind (OnlyReports.report env _ _).requires fun _ => .pure _
  | builtin =>
      exact .nothing_bind (env.onlyReports_reportNotes identifier _).requires fun _ =>
        .bind_nothing (.require _) fun _ => .pure _
  | standard =>
      exact .nothing_bind (env.onlyReports_reportNotes identifier _).requires fun _ =>
        .bind_nothing (env.requires_requireTypeFeature _) fun _ =>
          env.requires_lowerName identifier _

theorem requires_lowerRead (env : Environment) (identifier : Identifier) :
    Requires (env.lowerRead identifier) (env.wanted (.ident identifier)) := by
  have hreads := env.reads_lowerRead identifier
  generalize env.lowerRead identifier = step at hreads ⊢
  cases hreads with
  | endless => exact .throw _ _
  | @exported symbol path hsymbol hpath =>
      have hother : ¬ env.IsResolved identifier := fun hresolved =>
        hresolved.notExported ⟨symbol, path, hsymbol, hpath⟩
      rw [wanted_ident_of_not_isResolved hother]
      exact .nothing_bind (env.onlyReports_mustMangle identifier _).requires fun _ =>
        .nothing_bind (.identify symbol _) fun _ => .pure _
  | constant hother =>
      rw [wanted_ident_of_not_isResolved hother]
      exact .pure _
  | global hother =>
      rw [wanted_ident_of_not_isResolved hother]
      exact .nothing_bind (.identify _ _) fun _ => .pure _
  | resolved hresolved =>
      exact .bind_nothing (requires_lowerIdentifier hresolved) fun _ => .pure _

end Identifiers

/-! Expressions. -/

theorem requires_unpacker (env : Environment) :
    Requires env.unpacker
      { feature | feature = .unpack ∧ env.options.luaTarget = .universal } := by
  unfold unpacker
  cases htarget : env.options.luaTarget with
  | universal =>
      simp only [Lua.Target.unpack?, and_true, Set.ofPred_eq_eq_singleton]
      exact .bind_nothing (.require .unpack) fun _ => .pure _
  | lua50 | lua51 | lua52 | lua53 | lua54 | luaJit =>
      simp only [Lua.Target.unpack?, reduceCtorEq, and_false, Set.ofPred_false]
      exact .pure _

mutual

theorem requires_lower (env : Environment) (expr : Source.Expr) :
    Requires (env.lower expr) (env.wanted expr) := by
  cases expr with
  | ident identifier =>
      simp only [lower]
      exact env.requires_lowerRead identifier
  | numeric | string =>
      rw [lower, wanted_eq_empty]
      · exact .pure _
      · intro part feature hvisits hasks
        cases hvisits
        cases hasks
  | spread inner span =>
      simp only [lower]
      split
      · next hvarargs =>
        rw [wanted_spread_varargs hvarargs]
        exact .pure _
      · next hvarargs =>
        rw [wanted_spread (Bool.eq_false_iff.mpr hvarargs)]
        exact .bind (env.requires_lower inner) fun _ =>
          .bind_nothing env.requires_unpacker fun _ => .pure _
  | call callee arguments span =>
      have harguments := env.requires_lowerAll arguments
      have hplain : Requires (do
          let function ← env.lower callee
          return Lua.Expr.call function (← env.lowerAll arguments))
          (env.wanted callee ∪ env.wantedAll arguments) :=
        .bind (env.requires_lower callee) fun _ => .bind_nothing harguments fun _ => .pure _
      simp only [lower]
      cases hmarker : env.calleeMarker callee with
      | none =>
          rw [wanted_call_plain (Or.inl hmarker)]
          exact hplain
      | some marker =>
          cases marker with
          | multiReturn =>
              rw [wanted_call_marker hmarker rfl]
              exact .bind_nothing harguments fun _ => .pure _
          | operator operator =>
              rw [wanted_call_marker hmarker rfl]
              simp only
              split
              · have hreport := (env.onlyReports_reportUnsupported operator span).requires
                exact .nothing_bind hreport fun _ => .bind_nothing harguments fun values =>
                  (keeps_applyOperator operator values).requires
              · exact .throw _ _
          | tableAccess access =>
              rw [wanted_call_marker hmarker rfl]
              exact .bind_nothing harguments fun values =>
                (keeps_applyTableAccess access values).requires
          | vararg =>
              rw [wanted_call_plain (Or.inr hmarker)]
              exact hplain
          | range =>
              rw [wanted_call_range hmarker]
              exact .nothing_bind (OnlyReports.report env _ _).requires fun _ => .pure _

theorem requires_lowerAll (env : Environment) (exprs : List Source.Expr) :
    Requires (env.lowerAll exprs) (env.wantedAll exprs) := by
  cases exprs with
  | nil =>
      rw [wantedAll_nil, lowerAll]
      exact .pure _
  | cons first rest =>
      rw [wantedAll_cons, lowerAll]
      exact .bind (env.requires_lower first) fun _ =>
        .bind_nothing (env.requires_lowerAll rest) fun _ => .pure _

end

/-- After a lowering the features are those from before and, with all that they need, the ones that
the expression asks for. -/
theorem mem_features_lower_iff {env : Environment} {expr : Source.Expr} {value : Lua.Expr}
    {state after : UnitState} {start : FeatureSet.Assembly} (hstart : state.features = start.set)
    (hrun : (env.lower expr).outcome state = (.ok value, after)) (feature : Feature) :
    feature ∈ after.features.features ↔
      feature ∈ state.features.features ∨
        ∃ request ∈ env.wanted expr, request.Needs feature := by
  obtain ⟨requests, hrequests, hmem⟩ := env.requires_lower expr hrun
  have hordered : state.features.Ordered := by
    rw [hstart]
    exact start.ordered_set
  rw [hrequests, (FeatureSet.growsBy_extend hordered requests).mem_iff]
  simp only [hmem]

def collections : Environment :=
  ofProgram (Program.build
    [.file "main.ts" true, .library .standard "Promise", .library .standard "Map",
      .library .standard "Set", .library .extensions "$range",
      .type { symbol := some ⟨0⟩, standard := true },
      .type { symbol := some ⟨1⟩, standard := true },
      .type { symbol := some ⟨2⟩, standard := true }, .setSymbolType ⟨0⟩ ⟨1⟩,
      .declare ⟨0⟩ "m" {}, .setSymbolType ⟨4⟩ ⟨2⟩, .declare ⟨0⟩ "s" { exported := true },
      .setSymbolType ⟨5⟩ ⟨3⟩, .declare ⟨0⟩ "t" {}, .setSymbolType ⟨6⟩ ⟨3⟩,
      .reference ⟨0⟩ "Promise", .reference ⟨4⟩ "m", .reference ⟨5⟩ "s",
      .reference ⟨3⟩ "$range", .reference ⟨6⟩ "t"])

/-- A map is resolved; of two sets one is exported, and the other one is inside a range that no loop
runs over. -/
def collected : Source.Expr :=
  .call (.ident { node := ⟨0⟩, text := "Promise", span := .ofLength 0 7 })
    [.ident { node := ⟨1⟩, text := "m", span := .ofLength 8 1 },
      .ident { node := ⟨2⟩, text := "s", span := .ofLength 10 1 },
      .spread
        (.call (.ident { node := ⟨3⟩, text := "$range", span := .ofLength 12 6 })
          [.ident { node := ⟨4⟩, text := "t", span := .ofLength 19 1 }] (.ofLength 12 9))
        (.ofLength 12 9)] (.ofLength 0 22)

theorem mem_features_lower_iff_collected :
    ∃ value after, (collections.lower collected).outcome {} = (.ok value, after) ∧
      (∃ request ∈ collections.wanted collected, request.Needs .iterator) ∧
      (∃ request ∈ collections.wanted collected, request.Needs .unpack) ∧
      ¬ ∃ request ∈ collections.wanted collected, request.Needs .set := by
  obtain ⟨value, after, hrun, hafter⟩ : ∃ value after,
      (collections.lower collected).outcome {} = (.ok value, after) ∧
        after.features = FeatureSet.empty.extend [.promise, .map, .unpack] :=
    ⟨_, _, rfl, rfl⟩
  have hfeatures : after.features.features =
      [.arrayPush, .class', .functionBind, .symbol, .instanceOf, .new, .promise, .iterator, .map,
        .unpack] := by
    simp [hafter, FeatureSet.extend, FeatureSet.insert_eq, Feature.dependencies,
      FeatureSet.contains, FeatureSet.empty]
  have hempty : ({} : UnitState).features = FeatureSet.Assembly.empty.set := rfl
  have hiff (feature : Feature) :=
    (mem_features_lower_iff hempty hrun feature).trans (or_iff_right List.not_mem_nil)
  refine ⟨value, after, hrun, ?_⟩
  rw [← hiff, ← hiff, ← hiff, hfeatures]
  decide

end Environment

end LuaLowering
