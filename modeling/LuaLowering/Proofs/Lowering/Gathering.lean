import LuaLowering.Proofs.Lowering.Outcome
import LuaLowering.Proofs.Lowering.Traversal
import Mathlib.Logic.Relation

namespace LuaLowering

/-! All that lowering does to its state: it reports, requires and identifies. -/

namespace UnitState

inductive Change : UnitState → UnitState → Prop
  | report (state : UnitState) (diagnostic : Diagnostic) :
      Change state { state with log := state.log.add diagnostic }
  | require (state : UnitState) (feature : Feature) :
      Change state { state with features := state.features.insert feature }
  | identify (state : UnitState) (symbol : Symbol) (span : Span) :
      Change state { state with identities := (state.identities.identify symbol (some span)).2 }

def Gathers : UnitState → UnitState → Prop := Relation.ReflTransGen Change

theorem Gathers.trans {first second third : UnitState} (hfirst : first.Gathers second)
    (hsecond : second.Gathers third) : first.Gathers third :=
  Relation.ReflTransGen.trans hfirst hsecond

theorem gathers_reports (state : UnitState) (reports : List Diagnostic) :
    state.Gathers { state with log := state.log.extend reports } := by
  induction reports generalizing state with
  | nil =>
      rw [Log.extend, List.append_nil]
      exact .refl
  | cons diagnostic reports ih =>
      have hrest := ih { state with log := state.log.add diagnostic }
      simp only [Log.add, Log.extend, List.append_assoc] at hrest
      exact Relation.ReflTransGen.head (.report state diagnostic) hrest

theorem Gathers.exists_reports {state later : UnitState} (hgathers : state.Gathers later) :
    ∃ reports, later.log.entries = state.log.entries ++ reports := by
  induction hgathers with
  | refl => exact ⟨[], (List.append_nil _).symm⟩
  | tail _ hchange ih =>
      obtain ⟨reports, hreports⟩ := ih
      cases hchange with
      | report diagnostic =>
          refine ⟨reports ++ [diagnostic], ?_⟩
          rw [Log.entries_add, hreports, List.append_assoc]
      | require => exact ⟨reports, hreports⟩
      | identify => exact ⟨reports, hreports⟩

theorem Gathers.exists_requests {state later : UnitState} (hgathers : state.Gathers later) :
    ∃ requests, later.features = state.features.extend requests := by
  induction hgathers with
  | refl => exact ⟨[], rfl⟩
  | tail _ hchange ih =>
      obtain ⟨requests, hrequests⟩ := ih
      cases hchange with
      | report => exact ⟨requests, hrequests⟩
      | require feature =>
          refine ⟨requests ++ [feature], ?_⟩
          simp only [hrequests, FeatureSet.extend, List.foldl_append, List.foldl_cons,
            List.foldl_nil]
      | identify => exact ⟨requests, hrequests⟩

end UnitState

namespace Lower

variable {α β : Type}

/-- Whether the step fails or not, what it does to the state are changes of the three kinds. -/
def OnlyGathers (step : Lower α) : Prop :=
  ∀ state : UnitState, state.Gathers (step.outcome state).2

namespace OnlyGathers

theorem pure (value : α) : OnlyGathers (Pure.pure value : Lower α) :=
  fun _ => .refl

theorem throw (error : LoweringError) : OnlyGathers (MonadExcept.throw error : Lower α) :=
  fun _ => .refl

theorem bind {step : Lower α} {next : α → Lower β} (hstep : OnlyGathers step)
    (hnext : ∀ value, OnlyGathers (next value)) : OnlyGathers (step >>= next) := by
  intro state
  have hfirst := hstep state
  rw [outcome_bind]
  generalize step.outcome state = result at hfirst ⊢
  obtain ⟨error | value, between⟩ := result
  · exact hfirst
  · exact hfirst.trans (hnext value between)

theorem require (feature : Feature) : OnlyGathers (Lower.require feature) :=
  fun state => .single (.require state feature)

theorem identify (symbol : Symbol) (span : Span) : OnlyGathers (Lower.identify symbol span) := by
  intro state
  rw [outcome_identify]
  exact .single (.identify state symbol span)

theorem report (env : Environment) (span : Span) (problem : Problem) :
    OnlyGathers (env.report span problem) :=
  fun state => .single (.report state _)

theorem gathers {step : Lower α} (hstep : OnlyGathers step) {state after : UnitState}
    {result : Except LoweringError α} (hrun : step.outcome state = (result, after)) :
    state.Gathers after := by
  have hgathers := hstep state
  rwa [hrun] at hgathers

end OnlyGathers

theorem closed_onlyGathers : Closed OnlyGathers where
  pure := .pure
  throw := .throw
  bind := .bind
  report := .report
  require := .require
  identify := .identify

end Lower

namespace Environment

open Lower

variable (env : Environment)

/-! Steps that do less. -/

theorem onlyReports_mustMangle (identifier : Identifier) (symbol : Option Symbol) :
    OnlyReports (env.mustMangle identifier symbol) := by
  cases symbol with
  | none => exact .pure _
  | some symbol =>
      simp only [mustMangle]
      split
      · split
        · exact .pure _
        · exact .bind (.report env _ _) fun _ => .pure _
      · exact .pure _

theorem onlyReports_reportNotes (identifier : Identifier) (notes : Notes) :
    OnlyReports (env.reportNotes identifier notes) := by
  obtain ⟨misplaced, deprecated⟩ := notes
  have hdeprecated : OnlyReports (env.reportNotes identifier ⟨none, deprecated⟩) := by
    cases deprecated with
    | none => exact .pure _
    | some tag => exact .report env _ _
  cases misplaced with
  | none => exact hdeprecated
  | some marker => exact .bind (.report env _ _) fun _ => hdeprecated

theorem onlyReports_reportUnsupported (operator : MappedOperator) (span : Span) :
    OnlyReports (env.reportUnsupported operator span) := by
  simp only [reportUnsupported]
  split
  · exact .pure _
  · exact .report env _ _

theorem keeps_applyOperator (operator : MappedOperator) (operands : List Lua.Expr) :
    Keeps (applyOperator operator operands) := by
  unfold applyOperator
  split
  · exact .pure _
  · exact .pure _
  · exact .throw _

theorem keeps_applyTableAccess (access : TableAccess) (operands : List Lua.Expr) :
    Keeps (applyTableAccess access operands) := by
  unfold applyTableAccess
  split
  · cases access <;> exact .pure _
  · exact .throw _

/-! All of lowering. -/

theorem onlyGathers_lowerIdentifier (identifier : Identifier) :
    OnlyGathers (env.lowerIdentifier identifier) :=
  closed_onlyGathers.lowerIdentifier env identifier

theorem onlyGathers_lowerRead (identifier : Identifier) :
    OnlyGathers (env.lowerRead identifier) :=
  closed_onlyGathers.lowerRead env identifier

theorem onlyGathers_lower (expr : Source.Expr) : OnlyGathers (env.lower expr) :=
  closed_onlyGathers.lower env expr

theorem onlyGathers_lowerAll (exprs : List Source.Expr) : OnlyGathers (env.lowerAll exprs) :=
  closed_onlyGathers.lowerAll env exprs

theorem onlyGathers_lowerIterable (iterable : Source.Expr) :
    OnlyGathers (env.lowerIterable iterable) :=
  closed_onlyGathers.lowerIterable env iterable

end Environment

end LuaLowering
