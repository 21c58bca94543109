import LuaLowering.Lowering.Unit
import LuaLowering.Proofs.Lowering.Misuse
import LuaLowering.Proofs.Lowering.Session
import LuaLowering.Proofs.Polyfill.Assembly

namespace LuaLowering

/-! Nothing that was gathered is lost or changed, by calls that fail as little as by others. -/

namespace UnitState

structure Extends (state later : UnitState) : Prop where
  entries : state.log.entries <+: later.log.entries
  features : state.features.features <+: later.features.features
  identities : state.identities.Extends later.identities

theorem Gathers.extends {state later : UnitState} (hgathers : state.Gathers later) :
    state.Extends later where
  entries := by
    obtain ⟨reports, hreports⟩ := hgathers.exists_reports
    rw [hreports]
    exact List.prefix_append _ _
  features := by
    obtain ⟨requests, hrequests⟩ := hgathers.exists_requests
    rw [hrequests]
    exact FeatureSet.isPrefix_extend _ requests
  identities := hgathers.extends_identities

end UnitState

namespace Environment

/-! What each call of a run adds to the log. -/

def reported (env : Environment) : UnitState → List LoweringCall → List (List Diagnostic)
  | _, [] => []
  | state, call :: rest =>
      let next := ((env.perform call).outcome state).2
      next.log.entries.drop state.log.entries.length :: env.reported next rest

theorem entries_after (env : Environment) (state : UnitState) (calls : List LoweringCall) :
    (env.after state calls).log.entries =
      state.log.entries ++ (env.reported state calls).flatten := by
  induction calls generalizing state with
  | nil => exact (List.append_nil _).symm
  | cons call calls ih =>
      obtain ⟨reports, hreports⟩ := (env.onlyGathers_perform call state).exists_reports
      have hrest := ih ((env.perform call).outcome state).2
      simp only [reported, List.flatten_cons]
      rw [hreports, List.drop_left, ← List.append_assoc, ← hreports]
      exact hrest

theorem lower_of_lowerAll_eq_error {env : Environment} {exprs : List Source.Expr}
    {state last : UnitState} {error : LoweringError}
    (hrun : (env.lowerAll exprs).outcome state = (.error error, last)) :
    ∃ before failing behind, exprs = before ++ failing :: behind ∧
      (∀ answer ∈ env.answers state (before.map .expr), ∃ value, answer.2 = .ok value) ∧
      (env.lower failing).outcome (env.after state (before.map .expr)) = (.error error, last) := by
  induction exprs generalizing state with
  | nil =>
      simp only [lowerAll] at hrun
      cases hrun
  | cons first rest ih =>
      simp only [lowerAll] at hrun
      rcases Lower.outcome_bind_eq_error.mp hrun with hfirst | ⟨value, between, hfirst, hrest⟩
      · refine ⟨[], first, rest, rfl, ?_, hfirst⟩
        intro answer hmem
        cases hmem
      · have hrest : (env.lowerAll rest).outcome between = (.error error, last) := by
          rcases Lower.outcome_bind_eq_error.mp hrest with hrest | ⟨_, _, _, hpure⟩
          · exact hrest
          · cases hpure
        have hperform : (env.perform (.expr first)).outcome state =
            (.ok (.value value), between) :=
          Lower.outcome_bind_eq_ok.mpr ⟨value, between, hfirst, rfl⟩
        obtain ⟨before, failing, behind, rfl, hbefore, hfailing⟩ := ih hrest
        refine ⟨first :: before, failing, behind, rfl, ?_, ?_⟩
        · simp only [List.map_cons, answers, hperform, List.forall_mem_cons]
          exact ⟨⟨_, rfl⟩, hbefore⟩
        · simp only [List.map_cons, after, List.foldl_cons, hperform]
          exact hfailing

end Environment

section Units

variable {checker : Checker} {bindings : Bindings} {options : Options}

theorem lowerUnit_eq_error_iff {source : SourceUnit} {failure : UnitFailure} :
    lowerUnit checker bindings options source = .error failure ↔
      ∃ error state,
        (Environment.lowerAll ⟨checker, bindings, options, source.unit⟩ source.exprs).outcome {} =
          (.error error, state) ∧
        failure = ⟨source.unit, error, state.log.entries⟩ := by
  simp only [lowerUnit]
  generalize Lower.outcome _ _ = outcome
  obtain ⟨error | exprs, state⟩ := outcome
  · simp [eq_comm]
  · simp

end Units

namespace Environment

/-- A call adds to the state and leaves alone what is there, whether it fails or not.  So a unit
that fails has, before anything else, the diagnostics of the expressions in front of the one that
could not be lowered, one after the other. -/
theorem lowering_only_grows (env : Environment) :
    (∀ (state : UnitState) (call : LoweringCall),
      state.Extends ((env.perform call).outcome state).2) ∧
    ∀ exprs failure,
      lowerUnit env.checker env.bindings env.options ⟨env.unit, exprs⟩ = .error failure →
      ∃ before failing behind last, exprs = before ++ failing :: behind ∧
        (∀ answer ∈ env.answers {} (before.map .expr), ∃ value, answer.2 = .ok value) ∧
        (env.lower failing).outcome (env.after {} (before.map .expr)) =
          (.error failure.error, last) ∧
        failure.diagnostics = last.log.entries ∧
        (env.reported {} (before.map .expr)).flatten <+: failure.diagnostics := by
  constructor
  · intro state call
    exact (env.onlyGathers_perform call state).extends
  · intro exprs failure hfailure
    obtain ⟨error, last, hrun, rfl⟩ := lowerUnit_eq_error_iff.mp hfailure
    obtain ⟨before, failing, behind, rfl, hbefore, hfailing⟩ := lower_of_lowerAll_eq_error hrun
    refine ⟨before, failing, behind, last, rfl, hbefore, hfailing, rfl, ?_⟩
    have hentries := ((env.onlyGathers_lower failing).gathers hfailing).extends.entries
    rwa [entries_after] at hentries

def varargRead : Source.Expr :=
  .ident { node := ⟨2⟩, text := "$vararg", span := .ofLength 22 7 }

/-- The inner call fails after its neighbour has been reported. -/
def brokenPack : Source.Expr :=
  .call (.ident { node := ⟨1⟩, text := "$multi", span := .ofLength 12 6 })
    [.ident { node := ⟨2⟩, text := "$vararg", span := .ofLength 60 7 },
      .call (.ident { node := ⟨0⟩, text := "LuaAddition", span := .ofLength 0 11 }) []
        (.ofLength 0 13)] (.ofLength 12 60)

theorem lowering_only_grows_brokenPack :
    ∃ failure before failing behind,
      lowerUnit packing.checker packing.bindings packing.options
        ⟨packing.unit, [varargRead, brokenPack, varargRead]⟩ = .error failure ∧
      failure.error = .wrongArity "LuaAddition" 2 0 ∧
      failure.diagnostics =
        [.located ⟨0⟩ (.ofLength 22 7) .varargMisuse,
          .located ⟨0⟩ (.ofLength 60 7) .varargMisuse] ∧
      [varargRead, brokenPack, varargRead] = before ++ failing :: behind ∧
      (packing.reported {} (before.map .expr)).flatten <+: failure.diagnostics := by
  obtain ⟨failure, hfailure, herror, hdiagnostics⟩ : ∃ failure,
      lowerUnit packing.checker packing.bindings packing.options
        ⟨packing.unit, [varargRead, brokenPack, varargRead]⟩ = .error failure ∧
      failure.error = .wrongArity "LuaAddition" 2 0 ∧
      failure.diagnostics =
        [.located ⟨0⟩ (.ofLength 22 7) .varargMisuse,
          .located ⟨0⟩ (.ofLength 60 7) .varargMisuse] :=
    ⟨_, rfl, rfl, rfl⟩
  obtain ⟨before, failing, behind, _, hexprs, _, _, _, hprefix⟩ :=
    packing.lowering_only_grows.2 _ failure hfailure
  exact ⟨failure, before, failing, behind, hfailure, herror, hdiagnostics, hexprs, hprefix⟩

end Environment

end LuaLowering
