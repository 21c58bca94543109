import LuaLowering.Lowering.State

namespace LuaLowering.Lower

/-! Reasoning about what a step returns, and why it fails. -/

variable {α β : Type}

theorem outcome_bind_eq_ok {step : Lower α} {next : α → Lower β} {state after : UnitState}
    {result : β} :
    outcome (step >>= next) state = (.ok result, after) ↔
      ∃ value between, outcome step state = (.ok value, between) ∧
        outcome (next value) between = (.ok result, after) := by
  rw [outcome_bind]
  rcases outcome step state with ⟨error | value, between⟩
  · simp
  · constructor
    · intro hrest
      exact ⟨value, between, rfl, hrest⟩
    · rintro ⟨_, _, hfirst, hrest⟩
      cases hfirst
      exact hrest

theorem outcome_bind_eq_error {step : Lower α} {next : α → Lower β} {state after : UnitState}
    {error : LoweringError} :
    outcome (step >>= next) state = (.error error, after) ↔
      outcome step state = (.error error, after) ∨
        ∃ value between, outcome step state = (.ok value, between) ∧
          outcome (next value) between = (.error error, after) := by
  rw [outcome_bind]
  rcases outcome step state with ⟨failure | value, between⟩
  · simp
  · constructor
    · intro hrest
      exact Or.inr ⟨value, between, rfl, hrest⟩
    · rintro (hfirst | ⟨_, _, hfirst, hrest⟩)
      · cases hfirst
      · cases hfirst
        exact hrest

/-- Every value that the step can return, from whatever state, satisfies the condition. -/
def Yields (step : Lower α) (condition : α → Prop) : Prop :=
  ∀ ⦃state value after⦄, outcome step state = (.ok value, after) → condition value

namespace Yields

variable {condition stronger : α → Prop}

theorem mono {step : Lower α} (hstep : Yields step stronger)
    (himp : ∀ value, stronger value → condition value) : Yields step condition :=
  fun _ value _ hrun => himp value (hstep hrun)

theorem trivial (step : Lower α) : Yields step fun _ => True :=
  fun _ _ _ _ => True.intro

theorem and {step : Lower α} (hfirst : Yields step condition) (hsecond : Yields step stronger) :
    Yields step fun value => condition value ∧ stronger value :=
  fun _ _ _ hrun => ⟨hfirst hrun, hsecond hrun⟩

theorem pure {value : α} (hvalue : condition value) :
    Yields (Pure.pure value : Lower α) condition := by
  intro state returned after hrun
  rw [outcome_pure] at hrun
  cases hrun
  exact hvalue

theorem throw (error : LoweringError) :
    Yields (MonadExcept.throw error : Lower α) condition := by
  intro state returned after hrun
  cases hrun

theorem bind {step : Lower α} {next : α → Lower β} {final : β → Prop}
    (hstep : Yields step condition) (hnext : ∀ value, condition value → Yields (next value) final) :
    Yields (step >>= next) final := by
  intro state result after hrun
  obtain ⟨value, between, hfirst, hsecond⟩ := outcome_bind_eq_ok.mp hrun
  exact hnext value (hstep hfirst) hsecond

theorem bind_any {step : Lower α} {next : α → Lower β} {final : β → Prop}
    (hnext : ∀ value, Yields (next value) final) : Yields (step >>= next) final :=
  bind (trivial step) fun value _ => hnext value

end Yields

/-! Steps that change little or nothing. -/

def Keeps (step : Lower α) : Prop := ∀ state, (outcome step state).2 = state

theorem Keeps.pure (value : α) : Keeps (Pure.pure value : Lower α) := fun _ => rfl

theorem Keeps.throw (error : LoweringError) : Keeps (MonadExcept.throw error : Lower α) :=
  fun _ => rfl

/-- The step does not fail, and all that it does is to report. -/
def OnlyReports (step : Lower α) : Prop :=
  ∀ state, ∃ value reports, outcome step state =
    (.ok value, { state with log := state.log.extend reports })

namespace OnlyReports

theorem pure (value : α) : OnlyReports (Pure.pure value : Lower α) := by
  intro state
  refine ⟨value, [], ?_⟩
  rw [Log.extend, List.append_nil]
  rfl

theorem report (env : Environment) (span : Span) (problem : Problem) :
    OnlyReports (env.report span problem) :=
  fun _ => ⟨(), [.located env.unit span problem], rfl⟩

theorem bind {step : Lower α} {next : α → Lower β} (hstep : OnlyReports step)
    (hnext : ∀ value, OnlyReports (next value)) : OnlyReports (step >>= next) := by
  intro state
  obtain ⟨value, reports, hfirst⟩ := hstep state
  obtain ⟨result, more, hsecond⟩ := hnext value { state with log := state.log.extend reports }
  refine ⟨result, reports ++ more, ?_⟩
  rw [outcome_bind, hfirst]
  refine hsecond.trans ?_
  simp only [Log.extend, List.append_assoc]

end OnlyReports

end LuaLowering.Lower
