import LuaLowering.Lowering.Expr

namespace LuaLowering

/-! Lowering is put together from a few kinds of steps.  What holds of them and carries over to
steps in a row holds of all of lowering. -/

namespace Lower

structure Closed (holds : ∀ {α : Type}, Lower α → Prop) : Prop where
  pure : ∀ {α : Type} (value : α), holds (Pure.pure value : Lower α)
  throw : ∀ {α : Type} (error : LoweringError), holds (MonadExcept.throw error : Lower α)
  bind : ∀ {α β : Type} {step : Lower α} {next : α → Lower β}, holds step →
    (∀ value, holds (next value)) → holds (step >>= next)
  report : ∀ (env : Environment) (span : Span) (problem : Problem), holds (env.report span problem)
  require : ∀ feature : Feature, holds (Lower.require feature)
  identify : ∀ (symbol : Symbol) (span : Span), holds (Lower.identify symbol span)

namespace Closed

open Environment

variable {holds : ∀ {α : Type}, Lower α → Prop} (hclosed : Closed holds)

include hclosed

/-! Identifiers. -/

theorem mustMangle (env : Environment) (identifier : Identifier) (symbol : Option Symbol) :
    holds (env.mustMangle identifier symbol) := by
  cases symbol with
  | none => exact hclosed.pure _
  | some symbol =>
      simp only [Environment.mustMangle]
      split
      · split
        · exact hclosed.pure _
        · exact hclosed.bind (hclosed.report env _ _) fun _ => hclosed.pure _
      · exact hclosed.pure _

theorem reportNotes (env : Environment) (identifier : Identifier) (notes : Notes) :
    holds (env.reportNotes identifier notes) := by
  obtain ⟨misplaced, deprecated⟩ := notes
  have hdeprecated : holds (env.reportNotes identifier ⟨none, deprecated⟩) := by
    cases deprecated with
    | none => exact hclosed.pure _
    | some tag => exact hclosed.report env _ _
  cases misplaced with
  | none => exact hdeprecated
  | some marker => exact hclosed.bind (hclosed.report env _ _) fun _ => hdeprecated

theorem requireTypeFeature (env : Environment) (type : Ty) :
    holds (env.requireTypeFeature type) := by
  unfold Environment.requireTypeFeature
  split
  · exact hclosed.require _
  · exact hclosed.pure _

theorem identifyAll (symbol : Option Symbol) (span : Span) :
    holds (Environment.identifyAll symbol span) := by
  cases symbol with
  | none => exact hclosed.pure _
  | some symbol => exact hclosed.bind (hclosed.identify symbol span) fun _ => hclosed.pure _

theorem lowerName (env : Environment) (identifier : Identifier) (symbol : Option Symbol) :
    holds (env.lowerName identifier symbol) :=
  hclosed.bind (hclosed.mustMangle env identifier symbol) fun _ =>
    hclosed.bind (hclosed.identifyAll symbol identifier.span) fun _ => hclosed.pure _

theorem lowerIdentifier (env : Environment) (identifier : Identifier) :
    holds (env.lowerIdentifier identifier) := by
  unfold Environment.lowerIdentifier
  cases env.classify identifier with
  | continuation => exact hclosed.pure _
  | marker marker => exact hclosed.bind (hclosed.report env _ _) fun _ => hclosed.pure _
  | builtin feature notes =>
      exact hclosed.bind (hclosed.reportNotes env identifier notes) fun _ =>
        hclosed.bind (hclosed.require feature) fun _ => hclosed.pure _
  | standard symbol type notes =>
      exact hclosed.bind (hclosed.reportNotes env identifier notes) fun _ =>
        hclosed.bind (hclosed.requireTypeFeature env type) fun _ =>
          hclosed.lowerName env identifier symbol

theorem lowerBuiltinValue (env : Environment) (identifier : Identifier) :
    holds (env.lowerBuiltinValue identifier) := by
  unfold Environment.lowerBuiltinValue
  cases env.checker.symbolAt identifier.node with
  | none => exact hclosed.pure _
  | some symbol =>
      simp only
      split
      · exact hclosed.pure _
      · exact hclosed.pure _
      · exact hclosed.pure _
      · exact hclosed.bind (hclosed.identify symbol _) fun _ => hclosed.pure _

theorem lowerExport (env : Environment) (identifier : Identifier) (symbol : Symbol)
    (path : ExportPath) : holds (env.lowerExport identifier symbol path) :=
  hclosed.bind (hclosed.mustMangle env identifier (some symbol)) fun _ =>
    hclosed.bind (hclosed.identify symbol _) fun _ => hclosed.pure _

theorem lowerRead (env : Environment) (identifier : Identifier) :
    holds (env.lowerRead identifier) := by
  unfold Environment.lowerRead
  split
  · exact hclosed.throw _
  · exact hclosed.lowerExport env identifier _ _
  · split
    · exact hclosed.pure _
    · refine hclosed.bind (hclosed.lowerBuiltinValue env identifier) ?_
      intro found
      cases found with
      | some value => exact hclosed.pure _
      | none =>
          exact hclosed.bind (hclosed.lowerIdentifier env identifier) fun _ => hclosed.pure _

/-! Expressions. -/

theorem reportUnsupported (env : Environment) (operator : MappedOperator) (span : Span) :
    holds (env.reportUnsupported operator span) := by
  simp only [Environment.reportUnsupported]
  split
  · exact hclosed.pure _
  · exact hclosed.report env _ _

theorem applyOperator (operator : MappedOperator) (operands : List Lua.Expr) :
    holds (Environment.applyOperator operator operands) := by
  unfold Environment.applyOperator
  split
  · exact hclosed.pure _
  · exact hclosed.pure _
  · exact hclosed.throw _

theorem applyTableAccess (access : TableAccess) (operands : List Lua.Expr) :
    holds (Environment.applyTableAccess access operands) := by
  unfold Environment.applyTableAccess
  split
  · cases access with
    | get => exact hclosed.pure _
    | has => exact hclosed.pure _
  · exact hclosed.throw _

theorem unpacker (env : Environment) : holds env.unpacker := by
  unfold Environment.unpacker
  split
  · exact hclosed.pure _
  · exact hclosed.bind (hclosed.require _) fun _ => hclosed.pure _

theorem numericRange (bounds : List Lua.Expr) : holds (Environment.numericRange bounds) := by
  unfold Environment.numericRange
  split
  · exact hclosed.pure _
  · exact hclosed.pure _
  · exact hclosed.throw _

mutual

theorem lower (env : Environment) (expr : Source.Expr) : holds (env.lower expr) := by
  cases expr with
  | ident identifier =>
      simp only [Environment.lower]
      exact hclosed.lowerRead env identifier
  | numeric value span =>
      simp only [Environment.lower]
      exact hclosed.pure _
  | string value span =>
      simp only [Environment.lower]
      exact hclosed.pure _
  | spread inner span =>
      simp only [Environment.lower]
      split
      · exact hclosed.pure _
      · exact hclosed.bind (lower env inner) fun _ =>
          hclosed.bind (hclosed.unpacker env) fun _ => hclosed.pure _
  | call callee arguments span =>
      have harguments := lowerAll env arguments
      have hplain : holds (do
          let function ← env.lower callee
          return Lua.Expr.call function (← env.lowerAll arguments)) :=
        hclosed.bind (lower env callee) fun _ =>
          hclosed.bind harguments fun _ => hclosed.pure _
      simp only [Environment.lower]
      cases env.calleeMarker callee with
      | none => exact hplain
      | some marker =>
          cases marker with
          | multiReturn => exact hclosed.bind harguments fun _ => hclosed.pure _
          | operator operator =>
              simp only
              split
              · exact hclosed.bind (hclosed.reportUnsupported env operator span) fun _ =>
                  hclosed.bind harguments fun values => hclosed.applyOperator operator values
              · exact hclosed.throw _
          | tableAccess access =>
              exact hclosed.bind harguments fun values => hclosed.applyTableAccess access values
          | vararg => exact hplain
          | range => exact hclosed.bind (hclosed.report env _ _) fun _ => hclosed.pure _

theorem lowerAll (env : Environment) (exprs : List Source.Expr) : holds (env.lowerAll exprs) := by
  cases exprs with
  | nil =>
      simp only [Environment.lowerAll]
      exact hclosed.pure _
  | cons first rest =>
      simp only [Environment.lowerAll]
      exact hclosed.bind (lower env first) fun _ =>
        hclosed.bind (lowerAll env rest) fun _ => hclosed.pure _

end

theorem lowerIterable (env : Environment) (iterable : Source.Expr) :
    holds (env.lowerIterable iterable) := by
  unfold Environment.lowerIterable
  split
  · split
    · split
      · exact hclosed.bind (hclosed.lowerAll env _) fun values => hclosed.numericRange values
      · exact hclosed.throw _
    · exact hclosed.lower env _
  · exact hclosed.lower env _

end Closed

end Lower

end LuaLowering
