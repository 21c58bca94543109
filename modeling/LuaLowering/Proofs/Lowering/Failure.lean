import LuaLowering.Proofs.Export.Walk
import LuaLowering.Proofs.Lowering.Reading
import LuaLowering.Proofs.Lowering.Session
import LuaLowering.Proofs.Occurrence
import LuaLowering.Proofs.Program.Libraries

namespace LuaLowering

/-! What makes lowering fail.  A failure is handed on unchanged, and so is the state it leaves
behind. -/

namespace Lower

variable {α β : Type}

/-- Every failure of the step, with the state it leaves behind, has the cause. -/
def FailsFor (step : Lower α) (cause : LoweringError → UnitState → Prop) : Prop :=
  ∀ ⦃state error after⦄, outcome step state = (.error error, after) → cause error after

namespace FailsFor

variable {cause : LoweringError → UnitState → Prop}

theorem pure (value : α) : FailsFor (Pure.pure value : Lower α) cause := by
  intro state error after hrun
  cases hrun

theorem throw {error : LoweringError} (hcause : ∀ state, cause error state) :
    FailsFor (MonadExcept.throw error : Lower α) cause := by
  intro state returned after hrun
  cases hrun
  exact hcause state

theorem bind {step : Lower α} {next : α → Lower β} {condition : α → Prop}
    (hstep : FailsFor step cause) (hyields : Yields step condition)
    (hnext : ∀ value, condition value → FailsFor (next value) cause) :
    FailsFor (step >>= next) cause := by
  intro state error after hrun
  rcases outcome_bind_eq_error.mp hrun with hfirst | ⟨value, between, hfirst, hrest⟩
  · exact hstep hfirst
  · exact hnext value (hyields hfirst) hrest

theorem bind_any {step : Lower α} {next : α → Lower β} (hstep : FailsFor step cause)
    (hnext : ∀ value, FailsFor (next value) cause) : FailsFor (step >>= next) cause :=
  bind hstep (.trivial step) fun value _ => hnext value

theorem require (feature : Feature) : FailsFor (Lower.require feature) cause := by
  intro state error after hrun
  cases hrun

theorem identify {symbol : Symbol} {span : Span}
    (hcause : ∀ state : UnitState, state.identities.lookup? symbol = none →
      state.identities.limit ≤ state.identities.allocated →
      cause (.identitiesExhausted state.identities.allocated) state) :
    FailsFor (Lower.identify symbol span) cause := by
  intro state error after hrun
  have hstep := state.identities.identifies symbol (some span)
  rw [outcome_identify] at hrun
  generalize state.identities.identify symbol (some span) = result at hstep hrun
  cases hstep with
  | known => cases hrun
  | refused hnew hfull =>
      cases hrun
      exact hcause state hnew hfull
  | fresh => cases hrun

end FailsFor

theorem OnlyReports.failsFor {step : Lower α} {cause : LoweringError → UnitState → Prop}
    (hstep : OnlyReports step) : FailsFor step cause := by
  intro state error after hrun
  obtain ⟨value, reports, hreports⟩ := hstep state
  cases hreports.symm.trans hrun

end Lower

/-- The numbers of arguments with which a marker can be called where it may. -/
def Marker.accepts : Marker → Nat → Bool
  | multiReturn, _ => true
  | operator op, count => count = op.arity
  | tableAccess _, count => count = TableAccess.arity
  | vararg, _ => true
  | range, count => count = 2 || count = 3

namespace Environment

open Lower

/-- The causes of failures, to be found among the calls and identifiers of an expression. -/
inductive Justifies (env : Environment) (calls : List (Source.Expr × List Source.Expr))
    (identifiers : List Identifier) : LoweringError → UnitState → Prop
  | arity {callee : Identifier} {arguments : List Source.Expr} {marker : Marker} {expected : Nat}
      (hcall : (.ident callee, arguments) ∈ calls) (hmarker : env.markerOf callee = some marker)
      (hexpected : marker.accepts expected = true)
      (hfound : marker.accepts arguments.length = false) (state : UnitState) :
      Justifies env calls identifiers
        (.wrongArity marker.declaration expected arguments.length) state
  | exhausted {identifier : Identifier} {symbol : Symbol} {state : UnitState}
      (hmem : identifier ∈ identifiers)
      (hsymbol : env.checker.symbolAt identifier.node = some symbol)
      (hnew : state.identities.lookup? symbol = none)
      (hfull : state.identities.limit ≤ state.identities.allocated) :
      Justifies env calls identifiers (.identitiesExhausted state.identities.allocated) state
  | endless {identifier : Identifier} {symbol : Symbol} (hmem : identifier ∈ identifiers)
      (hsymbol : env.checker.symbolAt identifier.node = some symbol)
      (hexported : env.checker.isExported symbol = true)
      (hwalk : env.checker.WalksBeyond symbol Checker.maxScopes) (state : UnitState) :
      Justifies env calls identifiers (.endlessScopes (env.checker.symbolName symbol)) state

theorem failsFor_of_subset {α : Type} {env : Environment} {step : Lower α}
    {calls calls' : List (Source.Expr × List Source.Expr)}
    {identifiers identifiers' : List Identifier}
    (hstep : FailsFor step (env.Justifies calls identifiers)) (hcalls : calls ⊆ calls')
    (hidentifiers : identifiers ⊆ identifiers') :
    FailsFor step (env.Justifies calls' identifiers') := by
  intro state error after hrun
  cases hstep hrun with
  | arity hcall hmarker hexpected hfound =>
      exact .arity (hcalls hcall) hmarker hexpected hfound after
  | exhausted hmem hsymbol hnew hfull => exact .exhausted (hidentifiers hmem) hsymbol hnew hfull
  | endless hmem hsymbol hexported hwalk =>
      exact .endless (hidentifiers hmem) hsymbol hexported hwalk after

/-! Identifiers. -/

section Identifiers

variable (env : Environment) {cause : LoweringError → UnitState → Prop}

theorem failsFor_requireTypeFeature (type : Ty) :
    FailsFor (env.requireTypeFeature type) cause := by
  unfold requireTypeFeature
  split
  · exact .require _
  · exact .pure _

variable {env} {calls : List (Source.Expr × List Source.Expr)} {identifiers : List Identifier}
  {identifier : Identifier}

theorem failsFor_identify {symbol : Symbol} (hmem : identifier ∈ identifiers)
    (hsymbol : env.checker.symbolAt identifier.node = some symbol) (span : Span) :
    FailsFor (Lower.identify symbol span) (env.Justifies calls identifiers) :=
  .identify fun _ hnew hfull => .exhausted hmem hsymbol hnew hfull

theorem failsFor_lowerName (hmem : identifier ∈ identifiers) :
    FailsFor (env.lowerName identifier (env.checker.symbolAt identifier.node))
      (env.Justifies calls identifiers) := by
  refine .bind_any (env.onlyReports_mustMangle identifier _).failsFor fun _ => ?_
  refine .bind_any ?_ fun _ => .pure _
  cases hsymbol : env.checker.symbolAt identifier.node with
  | none => exact .pure _
  | some symbol => exact .bind_any (failsFor_identify hmem hsymbol _) fun _ => .pure _

theorem failsFor_lowerIdentifier (hmem : identifier ∈ identifiers) :
    FailsFor (env.lowerIdentifier identifier) (env.Justifies calls identifiers) := by
  have hspec := env.classifies_classify identifier
  unfold lowerIdentifier
  generalize env.classify identifier = kind at hspec ⊢
  cases hspec with
  | continuation => exact .pure _
  | marker => exact .bind_any (OnlyReports.report env _ _).failsFor fun _ => .pure _
  | builtin =>
      exact .bind_any (env.onlyReports_reportNotes identifier _).failsFor fun _ =>
        .bind_any (.require _) fun _ => .pure _
  | standard =>
      exact .bind_any (env.onlyReports_reportNotes identifier _).failsFor fun _ =>
        .bind_any (env.failsFor_requireTypeFeature _) fun _ => failsFor_lowerName hmem

theorem failsFor_lowerRead (hmem : identifier ∈ identifiers) :
    FailsFor (env.lowerRead identifier) (env.Justifies calls identifiers) := by
  have hreads := env.reads_lowerRead identifier
  generalize env.lowerRead identifier = step at hreads ⊢
  cases hreads with
  | endless hsymbol hpath =>
      obtain ⟨hexported, rfl, hwalk⟩ := Checker.walksBeyond_of_exportPath hpath
      exact .throw (.endless hmem hsymbol hexported hwalk)
  | exported hsymbol =>
      exact .bind_any (env.onlyReports_mustMangle identifier _).failsFor fun _ =>
        .bind_any (failsFor_identify hmem hsymbol _) fun _ => .pure _
  | constant => exact .pure _
  | global _ hsymbol => exact .bind_any (failsFor_identify hmem hsymbol _) fun _ => .pure _
  | resolved => exact .bind_any (failsFor_lowerIdentifier hmem) fun _ => .pure _

end Identifiers

/-! Arguments.  As many values come out as went in, so that nothing that was checked on the
arguments can fail on the values. -/

theorem length_lowerAll (env : Environment) (exprs : List Source.Expr) :
    Yields (env.lowerAll exprs) fun values => values.length = exprs.length := by
  induction exprs with
  | nil =>
      simp only [lowerAll]
      exact .pure rfl
  | cons first rest ih =>
      simp only [lowerAll]
      refine .bind_any fun value => .bind ih ?_
      intro values hlength
      exact .pure (congrArg (· + 1) hlength)

theorem exists_applyOperator {operator : MappedOperator} {operands : List Lua.Expr}
    (hlength : operands.length = operator.arity) :
    ∃ value, applyOperator operator operands = pure value := by
  unfold MappedOperator.arity at hlength
  unfold applyOperator
  cases hform : operator.form with
  | binary op =>
      rw [hform] at hlength
      obtain ⟨left, right, rfl⟩ := List.length_eq_two.mp hlength
      exact ⟨_, rfl⟩
  | unary op =>
      rw [hform] at hlength
      obtain ⟨operand, rfl⟩ := List.length_eq_one_iff.mp hlength
      exact ⟨_, rfl⟩

theorem exists_numericRange {bounds : List Lua.Expr} (htwo : 2 ≤ bounds.length)
    (hthree : bounds.length ≤ 3) : ∃ value, numericRange bounds = pure value := by
  match bounds, htwo, hthree with
  | [start, limit], _, _ => exact ⟨_, rfl⟩
  | [start, limit, step], _, _ => exact ⟨_, rfl⟩

/-! Expressions. -/

section Calls

variable {env : Environment} {calls : List (Source.Expr × List Source.Expr)}
  {identifiers : List Identifier} {callee : Identifier} {arguments : List Source.Expr}

theorem failsFor_applyTableAccess {access : TableAccess} {operands : List Lua.Expr}
    (hcall : (.ident callee, arguments) ∈ calls)
    (hmarker : env.markerOf callee = some (.tableAccess access))
    (hlength : operands.length = arguments.length) :
    FailsFor (applyTableAccess access operands) (env.Justifies calls identifiers) := by
  unfold applyTableAccess
  split
  · cases access <;> exact .pure _
  · next hoperands =>
    have hfound : (Marker.tableAccess access).accepts arguments.length = false := by
      apply decide_eq_false
      intro htwo
      obtain ⟨table, key, heq⟩ := List.length_eq_two.mp (hlength.trans htwo)
      exact hoperands table key heq
    rw [hlength]
    exact .throw (.arity hcall hmarker rfl hfound)

theorem failsFor_throw_operator {α : Type} {operator : MappedOperator}
    (hcall : (.ident callee, arguments) ∈ calls)
    (hmarker : env.markerOf callee = some (.operator operator))
    (hlength : arguments.length ≠ operator.arity) :
    FailsFor (throw (.wrongArity operator.declaration operator.arity arguments.length) : Lower α)
      (env.Justifies calls identifiers) :=
  .throw (.arity hcall hmarker (decide_eq_true rfl) (decide_eq_false hlength))

theorem failsFor_throw_range {α : Type} (hcall : (.ident callee, arguments) ∈ calls)
    (hmarker : env.markerOf callee = some .range)
    (hlength : ¬ (2 ≤ arguments.length ∧ arguments.length ≤ 3)) :
    FailsFor (throw (.wrongArity Marker.rangeName (if arguments.length < 2 then 2 else 3)
      arguments.length) : Lower α) (env.Justifies calls identifiers) := by
  have hexpected : Marker.range.accepts (if arguments.length < 2 then 2 else 3) = true := by
    split <;> rfl
  have hfound : Marker.range.accepts arguments.length = false := by
    simp only [Marker.accepts, Bool.or_eq_false_iff, decide_eq_false_iff_not]
    omega
  exact .throw (.arity hcall hmarker hexpected hfound)

end Calls

theorem failsFor_unpacker (env : Environment) {cause : LoweringError → UnitState → Prop} :
    FailsFor env.unpacker cause := by
  unfold unpacker
  split
  · exact .pure _
  · exact .bind_any (.require _) fun _ => .pure _

mutual

theorem failsFor_lower (env : Environment) (expr : Source.Expr) :
    FailsFor (env.lower expr) (env.Justifies expr.calls expr.identifiers) := by
  cases expr with
  | ident identifier =>
      simp only [lower, Source.Expr.identifiers]
      exact failsFor_lowerRead List.mem_cons_self
  | numeric value span =>
      simp only [lower]
      exact .pure _
  | string value span =>
      simp only [lower]
      exact .pure _
  | spread inner span =>
      simp only [lower, Source.Expr.calls, Source.Expr.identifiers]
      split
      · exact .pure _
      · exact .bind_any (env.failsFor_lower inner) fun _ =>
          .bind_any env.failsFor_unpacker fun _ => .pure _
  | call callee arguments span =>
      simp only [lower, Source.Expr.calls, Source.Expr.identifiers]
      generalize hcalls :
        (callee, arguments) :: (callee.calls ++ Source.Expr.callsAll arguments) = calls
      generalize hidentifiers :
        callee.identifiers ++ Source.Expr.identifiersAll arguments = identifiers
      have hcall : (callee, arguments) ∈ calls := by simp [← hcalls]
      have harguments : FailsFor (env.lowerAll arguments) (env.Justifies calls identifiers) := by
        refine failsFor_of_subset (env.failsFor_lowerAll arguments) ?_ ?_
        · simp [← hcalls]
        · simp [← hidentifiers]
      have hplain : FailsFor (do
          let function ← env.lower callee
          return Lua.Expr.call function (← env.lowerAll arguments))
          (env.Justifies calls identifiers) := by
        refine .bind_any ?_ fun _ => .bind_any harguments fun _ => .pure _
        refine failsFor_of_subset (env.failsFor_lower callee) ?_ ?_
        · simp [← hcalls]
        · simp [← hidentifiers]
      cases hcallee : env.calleeMarker callee with
      | none => exact hplain
      | some marker =>
          obtain ⟨identifier, rfl, hmarker⟩ := env.exists_of_calleeMarker hcallee
          cases marker with
          | multiReturn => exact .bind_any harguments fun _ => .pure _
          | operator operator =>
              simp only
              split
              · next hlength =>
                have hreport := env.onlyReports_reportUnsupported operator span
                refine .bind_any hreport.failsFor fun _ => ?_
                refine .bind harguments (env.length_lowerAll arguments) ?_
                intro values hvalues
                obtain ⟨value, hvalue⟩ := exists_applyOperator (hvalues.trans hlength)
                rw [hvalue]
                exact .pure value
              · next hlength => exact failsFor_throw_operator hcall hmarker hlength
          | tableAccess access =>
              refine .bind harguments (env.length_lowerAll arguments) ?_
              intro values hvalues
              exact failsFor_applyTableAccess hcall hmarker hvalues
          | vararg => exact hplain
          | range => exact .bind_any (OnlyReports.report env _ _).failsFor fun _ => .pure _

theorem failsFor_lowerAll (env : Environment) (exprs : List Source.Expr) :
    FailsFor (env.lowerAll exprs)
      (env.Justifies (Source.Expr.callsAll exprs) (Source.Expr.identifiersAll exprs)) := by
  cases exprs with
  | nil =>
      simp only [lowerAll]
      exact .pure _
  | cons first rest =>
      simp only [lowerAll, Source.Expr.callsAll, Source.Expr.identifiersAll]
      refine .bind_any ?_ fun _ => .bind_any ?_ fun _ => .pure _
      · refine failsFor_of_subset (env.failsFor_lower first) ?_ ?_
        · exact List.subset_append_left _ _
        · exact List.subset_append_left _ _
      · refine failsFor_of_subset (env.failsFor_lowerAll rest) ?_ ?_
        · exact List.subset_append_right _ _
        · exact List.subset_append_right _ _

end

theorem failsFor_lowerIterable (env : Environment) (iterable : Source.Expr) :
    FailsFor (env.lowerIterable iterable)
      (env.Justifies iterable.calls iterable.identifiers) := by
  unfold lowerIterable
  split
  · next callee arguments span =>
    split
    · next hcallee =>
      obtain ⟨identifier, rfl, hmarker⟩ := env.exists_of_calleeMarker hcallee
      split
      · next hlength =>
        refine .bind ?_ (env.length_lowerAll arguments) ?_
        · refine failsFor_of_subset (env.failsFor_lowerAll arguments) ?_ ?_
          · simp [Source.Expr.calls]
          · simp [Source.Expr.identifiers]
        · intro values hvalues
          rw [← hvalues] at hlength
          obtain ⟨value, hvalue⟩ := exists_numericRange hlength.1 hlength.2
          rw [hvalue]
          exact .pure value
      · next hlength => exact failsFor_throw_range (by simp [Source.Expr.calls]) hmarker hlength
    · exact env.failsFor_lower _
  · exact env.failsFor_lower _

/-- Every failure has its cause in the expression: a marker called with a number of arguments that
it does not take, a symbol for which no identity is left, or an exported symbol with too long a
walk.  Once the arguments of an operator or a range are counted, their values need no second
look. -/
theorem failures_justified (env : Environment) :
    (∀ (expr : Source.Expr) (state after : UnitState) (error : LoweringError),
      state.identities.Reachable →
      (env.lower expr).outcome state = (.error error, after) ∨
        (env.lowerIterable expr).outcome state = (.error error, after) →
      (∀ id, error ≠ .unknownFeature id) ∧
      ((∃ callee arguments marker expected, (.ident callee, arguments) ∈ expr.calls ∧
          env.markerOf callee = some marker ∧
          error = .wrongArity marker.declaration expected arguments.length ∧
          arguments.length ≠ expected ∧ marker.accepts expected = true ∧
          marker.accepts arguments.length = false) ∨
        (error = .identitiesExhausted state.identities.limit ∧
          after.identities.size = state.identities.limit.toNat ∧
          ∃ identifier ∈ expr.identifiers, ∃ symbol,
            env.checker.symbolAt identifier.node = some symbol ∧
            after.identities.lookup? symbol = none) ∨
        ∃ identifier ∈ expr.identifiers, ∃ symbol,
          env.checker.symbolAt identifier.node = some symbol ∧
          env.checker.isExported symbol = true ∧
          error = .endlessScopes (env.checker.symbolName symbol) ∧
          env.checker.WalksBeyond symbol 4096)) ∧
    ∀ (arguments : List Source.Expr) (values : List Lua.Expr) (state after : UnitState),
      (env.lowerAll arguments).outcome state = (.ok values, after) →
      (∀ operator : MappedOperator, arguments.length = operator.arity →
        ∃ value, applyOperator operator values = pure value) ∧
      (2 ≤ arguments.length → arguments.length ≤ 3 →
        ∃ value, numericRange values = pure value) := by
  constructor
  · intro expr state after error hstate hrun
    have hjustifies : env.Justifies expr.calls expr.identifiers error after := by
      rcases hrun with hrun | hrun
      · exact env.failsFor_lower expr hrun
      · exact env.failsFor_lowerIterable expr hrun
    have hgathers : state.Gathers after := by
      rcases hrun with hrun | hrun
      · exact (env.onlyGathers_lower expr).gathers hrun
      · exact (env.onlyGathers_lowerIterable expr).gathers hrun
    cases hjustifies with
    | @arity callee arguments marker expected hcall hmarker hexpected hfound =>
        refine ⟨fun _ => nofun, Or.inl ⟨callee, arguments, marker, expected, hcall, hmarker, rfl,
          ?_, hexpected, hfound⟩⟩
        intro hequal
        rw [hequal, hexpected] at hfound
        cases hfound
    | @exhausted identifier symbol _ hmem hsymbol hnew hfull =>
        have hwell := hgathers.wellFormed_identities hstate.wellFormed
        have hlimit := hgathers.extends_identities.limit_eq
        refine ⟨fun _ => nofun, Or.inr (Or.inl ⟨?_, ?_, identifier, hmem, symbol, hsymbol, hnew⟩)⟩
        · rw [hwell.allocated_eq_limit hfull, hlimit]
        · rw [hwell.limit_le_allocated_iff.mp hfull, hlimit]
    | @endless identifier symbol hmem hsymbol hexported hwalk =>
        exact ⟨fun _ => nofun,
          Or.inr (Or.inr ⟨identifier, hmem, symbol, hsymbol, hexported, rfl, hwalk⟩)⟩
  · intro arguments values state after hrun
    have hlength := env.length_lowerAll arguments hrun
    rw [← hlength]
    exact ⟨fun operator => exists_applyOperator, exists_numericRange⟩

def faulty : Environment :=
  ofProgram (Program.build
    [.file "main.ts" true, .library .extensions "LuaTableGet",
      .nameSpace ⟨0⟩ "Loop" { exported := true }, .setScopeParent ⟨2⟩ (some ⟨2⟩),
      .declare ⟨2⟩ "y" { exported := true }, .declare ⟨0⟩ "x" {},
      .reference ⟨0⟩ "LuaTableGet", .reference ⟨2⟩ "y", .reference ⟨3⟩ "x"])

def loopedRead : Identifier := { node := ⟨1⟩, text := "y", span := .ofLength 12 1 }

def plainRead : Source.Expr := .ident { node := ⟨2⟩, text := "x", span := .ofLength 14 1 }

/-- A call whose argument is an access to a table without a key. -/
def keylessAccess : Source.Expr :=
  .call plainRead
    [.call (.ident { node := ⟨0⟩, text := "LuaTableGet", span := .ofLength 0 11 }) [plainRead]
      (.ofLength 0 14)] (.ofLength 0 16)

theorem faulty_endless :
    faulty.lower (.ident loopedRead) = throw (.endlessScopes "y") := by
  have hendless : faulty.checker.Endless ⟨2⟩ :=
    ⟨fun _ => ⟨2⟩, rfl, fun _ => ⟨rfl, rfl, ⟨1⟩, rfl, rfl⟩⟩
  have hsymbol : faulty.checker.symbolAt loopedRead.node = some ⟨2⟩ := rfl
  have hpath : faulty.checker.exportPath ⟨2⟩ = .error (.endlessScopes "y") :=
    Checker.exportPath_of_walksForever rfl ⟨⟨2⟩, rfl, hendless⟩
  simp only [lower, lowerRead, exportOf_of_symbolAt hsymbol, hpath, Except.map]

theorem failures_justified_faulty :
    (∃ after, (faulty.lower keylessAccess).outcome {} =
        (.error (.wrongArity "LuaTableGet" 2 1), after) ∧
      ∃ callee arguments, (.ident callee, arguments) ∈ keylessAccess.calls ∧
        arguments.length = 1) ∧
    (∃ after, (faulty.lowerIterable plainRead).outcome { identities := .withLimit 0 } =
        (.error (.identitiesExhausted 0), after) ∧
      ∃ identifier ∈ plainRead.identifiers, ∃ symbol,
        faulty.checker.symbolAt identifier.node = some symbol ∧
        after.identities.lookup? symbol = none) ∧
    (faulty.lower (.ident loopedRead)).outcome {} = (.error (.endlessScopes "y"), {}) ∧
      faulty.checker.WalksBeyond ⟨2⟩ 4096 := by
  have hempty (limit : UInt32) : (IdentityTable.withLimit limit).Reachable := ⟨limit, [], rfl⟩
  refine ⟨?_, ?_, ?_⟩
  · obtain ⟨after, hrun⟩ : ∃ after, (faulty.lower keylessAccess).outcome {} =
        (.error (.wrongArity "LuaTableGet" 2 1), after) := ⟨_, rfl⟩
    refine ⟨after, hrun, ?_⟩
    rcases (faulty.failures_justified.1 _ _ _ _ (hempty _) (Or.inl hrun)).2 with
      ⟨callee, arguments, _, _, hcall, _, herror, _⟩ | ⟨⟨⟩, _⟩ | ⟨_, _, _, _, _, ⟨⟩, _⟩
    exact ⟨callee, arguments, hcall, (LoweringError.wrongArity.inj herror).2.2.symm⟩
  · obtain ⟨after, hrun⟩ : ∃ after,
        (faulty.lowerIterable plainRead).outcome { identities := .withLimit 0 } =
          (.error (.identitiesExhausted 0), after) := ⟨_, rfl⟩
    refine ⟨after, hrun, ?_⟩
    rcases (faulty.failures_justified.1 _ _ _ _ (hempty _) (Or.inr hrun)).2 with
      ⟨_, _, _, _, _, _, ⟨⟩, _⟩ | ⟨_, _, hidentifier⟩ | ⟨_, _, _, _, _, ⟨⟩, _⟩
    exact hidentifier
  · have hrun : (faulty.lower (.ident loopedRead)).outcome {} =
        (.error (.endlessScopes "y"), {}) := by
      rw [faulty_endless]
      rfl
    refine ⟨hrun, ?_⟩
    rcases (faulty.failures_justified.1 _ _ _ _ (hempty _) (Or.inl hrun)).2 with
      ⟨_, _, _, _, _, _, ⟨⟩, _⟩ | ⟨⟨⟩, _⟩ | ⟨identifier, hmem, symbol, hsymbol, _, _, hwalk⟩
    simp only [Source.Expr.identifiers, List.mem_singleton] at hmem
    subst hmem
    cases hsymbol
    exact hwalk

end Environment

end LuaLowering
