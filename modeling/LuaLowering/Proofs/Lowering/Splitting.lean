import LuaLowering.Lowering.Unit
import LuaLowering.Proofs.Lowering.Mirror
import LuaLowering.Proofs.Lowering.Session
import LuaLowering.Proofs.Occurrence
import LuaLowering.Proofs.Polyfill.Assembly
import Mathlib.Data.List.Perm.Subperm

namespace LuaLowering

/-! A unit lowered in two parts.  The second part then starts from a fresh state and not from the
one that the first part leaves behind. -/

/-! A table that has met more symbols. -/

namespace IdentityTable

structure Covers (filled fresh : IdentityTable) : Prop where
  limit_eq : fresh.limit = filled.limit
  wellFormed : filled.WellFormed
  wellFormed_fresh : fresh.WellFormed
  nodup : fresh.symbols.Nodup
  subset : fresh.symbols ⊆ filled.symbols

theorem symbols_add (table : IdentityTable) (symbol : Symbol) (firstSeen : Option Span) :
    (table.add symbol firstSeen).symbols = table.symbols ++ [symbol] := by
  simp only [symbols, add, List.map_append, List.map_cons, List.map_nil]

theorem WellFormed.not_mem_symbols {table : IdentityTable} (hwell : table.WellFormed)
    {symbol : Symbol} (hnew : table.lookup? symbol = none) : symbol ∉ table.symbols := by
  rw [hwell.mem_symbols_iff, hnew]
  simp

namespace Covers

variable {filled fresh : IdentityTable} {symbol : Symbol}

theorem size_le (hcovers : filled.Covers fresh) : fresh.size ≤ filled.size := by
  rw [← length_symbols, ← length_symbols]
  exact (hcovers.nodup.subperm hcovers.subset).length_le

theorem size_lt (hcovers : filled.Covers fresh) (hmem : symbol ∈ filled.symbols)
    (hnew : symbol ∉ fresh.symbols) : fresh.size < filled.size := by
  have hnodup : (symbol :: fresh.symbols).Nodup := List.nodup_cons.mpr ⟨hnew, hcovers.nodup⟩
  have hsubset : symbol :: fresh.symbols ⊆ filled.symbols :=
    List.cons_subset.mpr ⟨hmem, hcovers.subset⟩
  rw [← length_symbols, ← length_symbols]
  exact (hnodup.subperm hsubset).length_le

theorem not_full (hcovers : filled.Covers fresh) (hsize : fresh.size < filled.limit.toNat) :
    ¬ fresh.limit ≤ fresh.allocated := by
  rw [hcovers.wellFormed_fresh.limit_le_allocated_iff, hcovers.limit_eq]
  omega

theorem add_fresh (hcovers : filled.Covers fresh) (hmem : symbol ∈ filled.symbols)
    (hnew : fresh.lookup? symbol = none) (hroom : ¬ fresh.limit ≤ fresh.allocated)
    (firstSeen : Option Span) : filled.Covers (fresh.add symbol firstSeen) where
  limit_eq := hcovers.limit_eq
  wellFormed := hcovers.wellFormed
  wellFormed_fresh :=
    hcovers.wellFormed_fresh.add hnew (hcovers.wellFormed_fresh.size_lt_limit hroom) firstSeen
  nodup := by
    rw [symbols_add, ← List.concat_eq_append, List.nodup_concat]
    exact ⟨hcovers.wellFormed_fresh.not_mem_symbols hnew, hcovers.nodup⟩
  subset := by
    rw [symbols_add]
    exact List.append_subset.mpr ⟨hcovers.subset, List.cons_subset.mpr ⟨hmem, List.nil_subset _⟩⟩

theorem add_filled (hcovers : filled.Covers fresh) (hnew : filled.lookup? symbol = none)
    (hroom : ¬ filled.limit ≤ filled.allocated) (firstSeen : Option Span) :
    (filled.add symbol firstSeen).Covers fresh where
  limit_eq := hcovers.limit_eq
  wellFormed := hcovers.wellFormed.add hnew (hcovers.wellFormed.size_lt_limit hroom) firstSeen
  wellFormed_fresh := hcovers.wellFormed_fresh
  nodup := hcovers.nodup
  subset := by
    rw [symbols_add]
    exact List.subset_append_of_subset_left _ hcovers.subset

/-- The table that has met fewer symbols always has room for what the other one can take. -/
theorem identifies {firstSeen : Option Span} {answer answer' : Except LoweringError Identity}
    {next next' : IdentityTable} (hcovers : filled.Covers fresh)
    (hfilled : Identifies filled symbol firstSeen (answer, next))
    (hfresh : Identifies fresh symbol firstSeen (answer', next')) :
    (∃ allocated, answer = .error (.identitiesExhausted allocated)) ∨
      ∃ identity identity', answer = .ok identity ∧ answer' = .ok identity' ∧
        next.Covers next' := by
  cases hfilled with
  | refused => exact Or.inl ⟨_, rfl⟩
  | known hknown =>
      have hmem := hcovers.wellFormed.mem_symbols_iff.mpr ⟨_, hknown⟩
      cases hfresh with
      | known => exact Or.inr ⟨_, _, rfl, rfl, hcovers⟩
      | refused hnew hfull =>
          have hlt := hcovers.size_lt hmem (hcovers.wellFormed_fresh.not_mem_symbols hnew)
          have hsize := hcovers.wellFormed.size_le
          exact absurd hfull (hcovers.not_full (by omega))
      | fresh hnew hroom =>
          exact Or.inr ⟨_, _, rfl, rfl, hcovers.add_fresh hmem hnew hroom firstSeen⟩
  | fresh hnew hroom =>
      have hmem : symbol ∈ (filled.add symbol firstSeen).symbols := by
        rw [symbols_add]
        exact List.mem_append_right _ List.mem_cons_self
      cases hfresh with
      | known hknown =>
          have hold := hcovers.subset (hcovers.wellFormed_fresh.mem_symbols_iff.mpr ⟨_, hknown⟩)
          exact absurd hold (hcovers.wellFormed.not_mem_symbols hnew)
      | refused _ hfull =>
          have hle := hcovers.size_le
          have hlt := hcovers.wellFormed.size_lt_limit hroom
          exact absurd hfull (hcovers.not_full (by omega))
      | fresh hnew' hroom' =>
          exact Or.inr ⟨_, _, rfl, rfl,
            (hcovers.add_filled hnew hroom firstSeen).add_fresh hmem hnew' hroom' firstSeen⟩

end Covers

end IdentityTable

/-! The same step after other ones, and on its own. -/

/-- What was gathered on top of a state, and the same gathered on its own. -/
structure UnitState.Continues (base filled fresh : UnitState) : Prop where
  entries_eq : filled.log.entries = base.log.entries ++ fresh.log.entries
  features_eq : filled.features = base.features.merge fresh.features
  ordered : fresh.features.Ordered
  covers : filled.identities.Covers fresh.identities

def Lua.Ident.withoutIdentity (word : Lua.Ident) : Lua.Ident := { word with identity := none }

def Lua.Expr.withoutIdentities (expr : Lua.Expr) : Lua.Expr := expr.map Ident.withoutIdentity id

/-- Only identities may differ, and only the run on top of others may run out of them. -/
def Likeness.continuing (base : UnitState) : Likeness where
  states := base.Continues
  errors := Eq
  excused error := ∃ allocated, error = .identitiesExhausted allocated
  texts := Eq
  identities _ _ := True
  values := Lua.Expr.SameUnder Lua.Ident.withoutIdentity id

namespace Environment

open Lower Coupling

section Continuing

variable {base : UnitState}

theorem continuing_report (env : Environment) (span : Span) (problem : Problem) :
    (Likeness.continuing base).Couples Eq (env.report span problem) (env.report span problem) := by
  intro filled fresh hcontinues
  rw [outcome_report, outcome_report]
  refine .ok rfl { hcontinues with entries_eq := ?_ }
  rw [Log.entries_add, Log.entries_add, hcontinues.entries_eq, List.append_assoc]

theorem continuing_require (hbase : base.features.Ordered) (feature : Feature) :
    (Likeness.continuing base).Couples Eq (Lower.require feature) (Lower.require feature) := by
  intro filled fresh hcontinues
  rw [outcome_require, outcome_require]
  refine .ok rfl { hcontinues with features_eq := ?_, ordered := ?_ }
  · rw [hcontinues.features_eq]
    exact FeatureSet.merge_insert hbase hcontinues.ordered feature
  · exact (FeatureSet.growsBy_insert hcontinues.ordered feature).ordered

theorem continuing_identify (symbol : Symbol) (span : Span) :
    (Likeness.continuing base).Couples (fun _ _ => True) (Lower.identify symbol span)
      (Lower.identify symbol span) := by
  intro filled fresh hcontinues
  have hfilled := filled.identities.identifies symbol (some span)
  have hfresh := fresh.identities.identifies symbol (some span)
  rw [outcome_identify, outcome_identify]
  generalize filled.identities.identify symbol (some span) = result at hfilled ⊢
  generalize fresh.identities.identify symbol (some span) = result' at hfresh ⊢
  obtain ⟨answer, next⟩ := result
  obtain ⟨answer', next'⟩ := result'
  rcases hcontinues.covers.identifies hfilled hfresh with
    ⟨allocated, rfl⟩ | ⟨identity, identity', rfl, rfl, hcovers⟩
  · exact .excused ⟨allocated, rfl⟩
  · exact .ok True.intro { hcontinues with covers := hcovers }

theorem mirrors_continuing (env : Environment) (hbase : base.features.Ordered) :
    Mirrors (.continuing base) env env where
  checker := rfl
  bindings := rfl
  report := env.continuing_report
  reportUnsupported := couples_reportUnsupported env.continuing_report
  require := continuing_require hbase
  identify := continuing_identify
  mustMangle halike :=
    couples_mustMangle env.continuing_report (fun _ => rfl) halike.1 halike.2
  unpack := couples_unpack (continuing_require hbase) Lua.Expr.congruence_sameUnder
  errors_refl _ := rfl
  errors_endless _ := rfl
  texts_refl _ := rfl
  identities_refl _ := True.intro
  congruence := Lua.Expr.congruence_sameUnder
  ident := by
    rintro ⟨text, source, identity, span⟩ ⟨text', source', identity', span'⟩ htext hsource _ hspan
    cases htext
    cases hspan
    cases hsource with
    | none => exact rfl
    | some hname =>
        cases hname
        exact rfl
  access := by
    intro symbol path path' hpath hpath'
    rw [hpath] at hpath'
    cases hpath'
    exact rfl

end Continuing

theorem lowerAll_append (env : Environment) (front back : List Source.Expr) :
    env.lowerAll (front ++ back) = (do
      let values ← env.lowerAll front
      return values ++ (← env.lowerAll back)) := by
  induction front with
  | nil => simp [lowerAll]
  | cons first rest ih => simp [lowerAll, ih]

/-- What lowering leaves behind is a state to continue from. -/
theorem continues_of_gathers {base : UnitState} (hgathers : UnitState.Gathers {} base) :
    base.features.Ordered ∧ base.Continues base {} := by
  obtain ⟨requests, hrequests⟩ := hgathers.exists_requests
  have hempty : IdentityTable.WellFormed {} := IdentityTable.wellFormed_withLimit _
  refine ⟨?_, ⟨(List.append_nil _).symm, rfl, FeatureSet.ordered_empty, ?_⟩⟩
  · rw [hrequests]
    exact (FeatureSet.growsBy_extend FeatureSet.ordered_empty requests).ordered
  · exact {
      limit_eq := hgathers.extends_identities.limit_eq.symm
      wellFormed := hgathers.wellFormed_identities hempty
      wellFormed_fresh := hempty
      nodup := List.nodup_nil
      subset := List.nil_subset _ }

end Environment

section Units

variable {checker : Checker} {bindings : Bindings} {options : Options}

theorem lowerUnit_eq_ok_iff {source : SourceUnit} {result : LoweredUnit} :
    lowerUnit checker bindings options source = .ok result ↔
      ∃ exprs state,
        (Environment.lowerAll ⟨checker, bindings, options, source.unit⟩ source.exprs).outcome {} =
          (.ok exprs, state) ∧
        result = ⟨source.unit, exprs, state.log.entries, state.features⟩ := by
  simp only [lowerUnit]
  generalize Lower.outcome _ _ = outcome
  obtain ⟨error | exprs, state⟩ := outcome
  · simp
  · simp [eq_comm]

/-- A unit may be lowered in two parts: its diagnostics are those of the parts, one after the other,
its features are merged from theirs, and in its expressions only identities can differ. -/
theorem lowerUnit_append {unit : UnitId} {front back : List Source.Expr} {whole : LoweredUnit}
    (hwhole : lowerUnit checker bindings options ⟨unit, front ++ back⟩ = .ok whole) :
    ∃ first second,
      lowerUnit checker bindings options ⟨unit, front⟩ = .ok first ∧
      lowerUnit checker bindings options ⟨unit, back⟩ = .ok second ∧
      whole.diagnostics = first.diagnostics ++ second.diagnostics ∧
      whole.features = mergedFeatures [first, second] ∧
      whole.exprs.map Lua.Expr.withoutIdentities =
        (first.exprs ++ second.exprs).map Lua.Expr.withoutIdentities := by
  obtain ⟨exprs, state, hrun, rfl⟩ := lowerUnit_eq_ok_iff.mp hwhole
  rw [Environment.lowerAll_append] at hrun
  obtain ⟨values, between, hfront, hrest⟩ := Lower.outcome_bind_eq_ok.mp hrun
  obtain ⟨values', after, hback, hpure⟩ := Lower.outcome_bind_eq_ok.mp hrest
  cases hpure
  let env : Environment := ⟨checker, bindings, options, unit⟩
  have hgathers : UnitState.Gathers {} between := by
    have hgathers := env.onlyGathers_lowerAll front {}
    rw [hfront] at hgathers
    exact hgathers
  obtain ⟨hordered, hcontinues⟩ := Environment.continues_of_gathers hgathers
  have halike : Source.Expr.AlikeAll (Likeness.continuing between).Identifiers back back :=
    Source.Expr.alikeAll_refl (fun _ => ⟨⟨rfl, rfl, rfl, rfl⟩, rfl⟩) back
  have houtcomes := (env.mirrors_continuing hordered).couples_lowerAll halike hcontinues
  rw [hback] at houtcomes
  generalize hfresh : (env.lowerAll back).outcome {} = result at houtcomes
  cases houtcomes with
  | @ok _ values'' _ alone hvalues hstates =>
      refine ⟨_, _, lowerUnit_eq_ok_iff.mpr ⟨values, between, hfront, rfl⟩,
        lowerUnit_eq_ok_iff.mpr ⟨values'', alone, hfresh, rfl⟩, hstates.entries_eq, ?_, ?_⟩
      · simp only [mergedFeatures, List.foldl_cons, List.foldl_nil]
        rw [hstates.features_eq]
        exact congrArg (FeatureSet.merge · _) (FeatureSet.empty_merge hordered).symm
      · rw [List.map_append, List.map_append]
        exact congrArg _ (Lua.Expr.map_eq_map_of_forall₂ hvalues)

end Units

namespace Environment

def spreadOther : List Source.Expr := [.spread (.ident otherName) otherName.span]

def identitiesOf (exprs : List Lua.Expr) : List (Option Identity) :=
  (Lua.Expr.identsAll exprs).map Lua.Ident.identity

/-- The second part alone meets its symbols in another order. -/
theorem lowerUnit_append_shadowed :
    ∃ whole first second,
      lowerUnit shadowed.checker shadowed.bindings shadowed.options
        ⟨shadowed.unit, spreadOther ++ .ident innerValue :: spreadOther⟩ = .ok whole ∧
      lowerUnit shadowed.checker shadowed.bindings shadowed.options
        ⟨shadowed.unit, spreadOther⟩ = .ok first ∧
      lowerUnit shadowed.checker shadowed.bindings shadowed.options
        ⟨shadowed.unit, .ident innerValue :: spreadOther⟩ = .ok second ∧
      identitiesOf whole.exprs ≠ identitiesOf (first.exprs ++ second.exprs) ∧
      whole.features = mergedFeatures [first, second] ∧
      whole.exprs.map Lua.Expr.withoutIdentities =
        (first.exprs ++ second.exprs).map Lua.Expr.withoutIdentities := by
  obtain ⟨whole, hwhole, hidentities⟩ : ∃ whole,
      lowerUnit shadowed.checker shadowed.bindings shadowed.options
        ⟨shadowed.unit, spreadOther ++ .ident innerValue :: spreadOther⟩ = .ok whole ∧
      identitiesOf whole.exprs = [none, some ⟨1⟩, some ⟨2⟩, none, some ⟨1⟩] :=
    ⟨_, rfl, rfl⟩
  obtain ⟨first, second, hfirst, hsecond, _, hfeatures, hexprs⟩ := lowerUnit_append hwhole
  refine ⟨whole, first, second, hwhole, hfirst, hsecond, ?_, hfeatures, hexprs⟩
  cases hfirst
  cases hsecond
  rw [hidentities]
  decide

end Environment

end LuaLowering
