import LuaLowering.Proofs.Lowering.Monotone

namespace LuaLowering

/-! Lowering once more.  What a first run has gathered is still there later, so that a second run
finds every identity and every feature that it asks for. -/

namespace UnitState

namespace Extends

theorem refl (state : UnitState) : state.Extends state where
  entries := List.prefix_rfl
  features := List.prefix_rfl
  identities := .refl _

theorem trans {first second third : UnitState} (hfirst : first.Extends second)
    (hsecond : second.Extends third) : first.Extends third where
  entries := hfirst.entries.trans hsecond.entries
  features := hfirst.features.trans hsecond.features
  identities := hfirst.identities.trans hsecond.identities

end Extends

theorem extends_extend_log (state : UnitState) (reports : List Diagnostic) :
    state.Extends { state with log := state.log.extend reports } :=
  (state.gathers_reports reports).extends

end UnitState

namespace FeatureSet

theorem mem_insert_self (set : FeatureSet) (feature : Feature) :
    feature ∈ (set.insert feature).features := by
  by_cases hmem : feature ∈ set.features
  · rwa [insert_of_mem hmem]
  · rw [insert_of_not_mem hmem]
    exact List.mem_append_right _ List.mem_cons_self

end FeatureSet

theorem IdentityTable.identify_of_lookup? {table : IdentityTable} {symbol : Symbol}
    {identity : Identity} (hknown : table.lookup? symbol = some identity)
    (firstSeen : Option Span) : table.identify symbol firstSeen = (.ok identity, table) := by
  rw [identify, hknown]

namespace Lower

variable {α β : Type}

/-- A step that succeeded does so again in every state that holds what the first run left behind:
it returns the same value and reports the same, and nothing else comes in. -/
def Replays (step : Lower α) : Prop :=
  ∀ ⦃state value after⦄, outcome step state = (.ok value, after) →
    state.Extends after ∧
    ∃ reports, after.log = state.log.extend reports ∧
      ∀ later : UnitState, after.Extends later →
        outcome step later = (.ok value, { later with log := later.log.extend reports })

namespace Replays

theorem pure (value : α) : Replays (Pure.pure value : Lower α) := by
  intro state returned after hrun
  cases hrun
  refine ⟨.refl state, [], ?_, ?_⟩
  · rw [Log.extend, List.append_nil]
  · intro later _
    rw [Log.extend, List.append_nil]
    rfl

theorem throw (error : LoweringError) : Replays (MonadExcept.throw error : Lower α) := by
  intro state returned after hrun
  cases hrun

theorem bind {step : Lower α} {next : α → Lower β} (hstep : Replays step)
    (hnext : ∀ value, Replays (next value)) : Replays (step >>= next) := by
  intro state result after hrun
  obtain ⟨value, between, hfirst, hsecond⟩ := outcome_bind_eq_ok.mp hrun
  obtain ⟨hbetween, reports, hreports, hreplay⟩ := hstep hfirst
  obtain ⟨hafter, more, hmore, hreplay'⟩ := hnext value hsecond
  refine ⟨hbetween.trans hafter, reports ++ more, ?_, ?_⟩
  · rw [hmore, hreports]
    simp only [Log.extend, List.append_assoc]
  · intro later hlater
    have hfirst' := hreplay later (hafter.trans hlater)
    have hsecond' := hreplay' _ (hlater.trans (later.extends_extend_log reports))
    rw [outcome_bind, hfirst']
    refine hsecond'.trans ?_
    simp only [Log.extend, List.append_assoc]

theorem report (env : Environment) (span : Span) (problem : Problem) :
    Replays (env.report span problem) := by
  intro state returned after hrun
  cases hrun
  refine ⟨state.extends_extend_log [_], [.located env.unit span problem], rfl, ?_⟩
  intro later _
  rfl

theorem require (feature : Feature) : Replays (Lower.require feature) := by
  intro state returned after hrun
  have hextends := ((OnlyGathers.require feature).gathers hrun).extends
  cases hrun
  refine ⟨hextends, [], ?_, ?_⟩
  · rw [Log.extend, List.append_nil]
  · intro later hlater
    have hmem := hlater.features.subset (state.features.mem_insert_self feature)
    rw [outcome_require, FeatureSet.insert_of_mem hmem, Log.extend, List.append_nil]

theorem identify (symbol : Symbol) (span : Span) : Replays (Lower.identify symbol span) := by
  intro state identity after hrun
  have hextends := ((OnlyGathers.identify symbol span).gathers hrun).extends
  have hlookup := lookup?_of_outcome_identify hrun
  have hlog : after.log = state.log := by
    rw [outcome_identify] at hrun
    rw [← (Prod.mk.inj hrun).2]
  refine ⟨hextends, [], ?_, ?_⟩
  · rw [hlog, Log.extend, List.append_nil]
  · intro later hlater
    have hknown := hlater.identities.lookup?_eq hlookup
    rw [outcome_identify, IdentityTable.identify_of_lookup? hknown, Log.extend, List.append_nil]

end Replays

theorem closed_replays : Closed Replays where
  pure := .pure
  throw := .throw
  bind := .bind
  report := .report
  require := .require
  identify := .identify

end Lower

namespace Environment

/-- An expression that could be lowered once can be lowered again after any other calls, failed
ones included: the code is the same down to the identities, the same is reported, and no identity
and no feature is added.  It does not matter whether there are identities left to give. -/
theorem lower_again {env : Environment} {expr : Source.Expr} {start first : UnitState}
    {value : Lua.Expr} (hrun : (env.lower expr).outcome start = (.ok value, first))
    (calls : List LoweringCall) :
    ∃ reports, first.log.entries = start.log.entries ++ reports ∧
      (env.lower expr).outcome (env.after first calls) =
        (.ok value,
          { env.after first calls with
            log := (env.after first calls).log.extend reports }) := by
  obtain ⟨_, reports, hreports, hreplay⟩ := Lower.closed_replays.lower env expr hrun
  refine ⟨reports, congrArg Log.entries hreports, ?_⟩
  exact hreplay _ (env.gathers_after first calls).extends

def forwarding : Environment :=
  ofProgram (Program.build
    [.file "main.ts" true, .library .extensions "$vararg", .declare ⟨0⟩ "list" {},
      .declare ⟨0⟩ "other" {}, .reference ⟨0⟩ "$vararg", .reference ⟨1⟩ "list",
      .reference ⟨2⟩ "other"])

def listRead : Source.Expr := .ident { node := ⟨1⟩, text := "list", span := .ofLength 8 4 }

def otherRead : Identifier := { node := ⟨2⟩, text := "other", span := .ofLength 13 5 }

/-- Takes an identity, requires a feature and reports a misuse. -/
def forwardAll : Source.Expr :=
  .call listRead
    [.spread listRead (.ofLength 5 7),
      .ident { node := ⟨0⟩, text := "$vararg", span := .ofLength 0 7 }] (.ofLength 0 20)

/-- The only identity is given to the first run, so that another symbol is refused before the second
one. -/
theorem lower_again_forwardAll :
    ∃ value first reports,
      (forwarding.lower forwardAll).outcome { identities := .withLimit 1 } = (.ok value, first) ∧
      forwarding.answers first [.identifier otherRead] =
        [(.identifier otherRead, .error (.identitiesExhausted 1))] ∧
      reports = [.located ⟨0⟩ (.ofLength 0 7) .varargMisuse] ∧
      (forwarding.lower forwardAll).outcome (forwarding.after first [.identifier otherRead]) =
        (.ok value,
          { forwarding.after first [.identifier otherRead] with
            log := (forwarding.after first [.identifier otherRead]).log.extend reports }) := by
  obtain ⟨value, first, hrun, hanswers, hentries⟩ : ∃ value first,
      (forwarding.lower forwardAll).outcome { identities := .withLimit 1 } = (.ok value, first) ∧
      forwarding.answers first [.identifier otherRead] =
        [(.identifier otherRead, .error (.identitiesExhausted 1))] ∧
      first.log.entries = [.located ⟨0⟩ (.ofLength 0 7) .varargMisuse] :=
    ⟨_, _, rfl, rfl, rfl⟩
  obtain ⟨reports, hreports, hagain⟩ := lower_again hrun [.identifier otherRead]
  refine ⟨value, first, reports, hrun, hanswers, ?_, hagain⟩
  rw [← hentries, hreports]
  exact (List.nil_append reports).symm

end Environment

end LuaLowering
