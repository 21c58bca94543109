import LuaLowering.Proofs.Lowering.Coupling

namespace LuaLowering

/-! Lowering in two environments that differ in names at most. -/

structure Identifier.Renames (identifier renamed : Identifier) : Prop where
  node_eq : renamed.node = identifier.node
  span_eq : renamed.span = identifier.span
  continuesChain_eq : renamed.continuesChain = identifier.continuesChain
  isUndefined_eq : renamed.isUndefined = identifier.isUndefined

theorem Identifier.Renames.eq_of_text_eq {identifier renamed : Identifier}
    (hrenames : identifier.Renames renamed) (htext : identifier.text = renamed.text) :
    identifier = renamed := by
  cases identifier
  cases renamed
  cases htext
  cases hrenames.node_eq
  cases hrenames.span_eq
  cases hrenames.continuesChain_eq
  rfl

/-- How far two runs may differ. -/
structure Likeness extends Coupling where
  texts : String → String → Prop
  identities : Identity → Identity → Prop
  values : Lua.Expr → Lua.Expr → Prop

namespace Likeness

def Identifiers (likeness : Likeness) (identifier identifier' : Identifier) : Prop :=
  identifier.Renames identifier' ∧ likeness.texts identifier.text identifier'.text

def Words (likeness : Likeness) (word word' : Lua.Ident) : Prop :=
  likeness.values (.ident word) (.ident word')

end Likeness

namespace Environment

open Lower Coupling

/-- What has to be known about single steps for two environments to do alike in all of lowering. -/
structure Mirrors (likeness : Likeness) (env env' : Environment) : Prop where
  checker : env.checker.anonymous = env'.checker.anonymous
  bindings : env.bindings = env'.bindings
  report : ∀ span problem,
    likeness.Couples Eq (env.report span problem) (env'.report span problem)
  reportUnsupported : ∀ operator span,
    likeness.Couples Eq (env.reportUnsupported operator span) (env'.reportUnsupported operator span)
  require : ∀ feature, likeness.Couples Eq (Lower.require feature) (Lower.require feature)
  identify : ∀ symbol span,
    likeness.Couples likeness.identities (Lower.identify symbol span) (Lower.identify symbol span)
  mustMangle : ∀ {identifier identifier'}, likeness.Identifiers identifier identifier' →
    ∀ symbol, likeness.Couples
      (fun mangled mangled' =>
        likeness.texts (if mangled then Lua.mangle identifier.text else identifier.text)
          (if mangled' then Lua.mangle identifier'.text else identifier'.text))
      (env.mustMangle identifier symbol) (env'.mustMangle identifier' symbol)
  unpack : ∀ {value value'}, likeness.values value value' →
    likeness.Couples likeness.values
      (do return Lua.Expr.call (← env.unpacker) [value])
      (do return Lua.Expr.call (← env'.unpacker) [value'])
  errors_refl : ∀ error, likeness.errors error error
  errors_endless : ∀ symbol,
    likeness.errors (.endlessScopes (env.checker.symbolName symbol))
      (.endlessScopes (env'.checker.symbolName symbol))
  texts_refl : ∀ text, likeness.texts text text
  identities_refl : ∀ identity, likeness.identities identity identity
  congruence : Lua.Expr.Congruence likeness.values
  ident : ∀ {word word' : Lua.Ident}, likeness.texts word.text word'.text →
    Option.Rel likeness.texts word.sourceName word'.sourceName →
    Option.Rel likeness.identities word.identity word'.identity → word.span = word'.span →
    likeness.Words word word'
  access : ∀ {symbol path path'}, env.checker.exportPath symbol = .ok (some path) →
    env'.checker.exportPath symbol = .ok (some path') →
    likeness.values (path.table.field (env.checker.symbolName symbol))
      (path'.table.field (env'.checker.symbolName symbol))

/-! Three of the steps for an environment that is compared with itself. -/

section Same

variable {likeness : Likeness} {env : Environment}

theorem couples_reportUnsupported
    (hreport : ∀ span problem,
      likeness.Couples Eq (env.report span problem) (env.report span problem))
    (operator : MappedOperator) (span : Span) :
    likeness.Couples Eq (env.reportUnsupported operator span)
      (env.reportUnsupported operator span) := by
  simp only [reportUnsupported]
  split
  · exact .pure rfl
  · exact hreport _ _

theorem couples_mustMangle
    (hreport : ∀ span problem,
      likeness.Couples Eq (env.report span problem) (env.report span problem))
    (htexts : ∀ text, likeness.texts text text) {identifier identifier' : Identifier}
    (hrenames : identifier.Renames identifier') (htext : identifier.text = identifier'.text)
    (symbol : Option Symbol) :
    likeness.Couples
      (fun mangled mangled' =>
        likeness.texts (if mangled then Lua.mangle identifier.text else identifier.text)
          (if mangled' then Lua.mangle identifier'.text else identifier'.text))
      (env.mustMangle identifier symbol) (env.mustMangle identifier' symbol) := by
  obtain rfl := hrenames.eq_of_text_eq htext
  have hsame : likeness.Couples Eq (env.mustMangle identifier symbol)
      (env.mustMangle identifier symbol) := by
    cases symbol with
    | none => exact .pure rfl
    | some symbol =>
        simp only [mustMangle]
        split
        · split
          · exact .pure rfl
          · exact .bind_eq (hreport _ _) fun _ => .pure rfl
        · exact .pure rfl
  apply hsame.mono
  rintro mangled _ rfl
  exact htexts _

theorem couples_unpack
    (hrequire : ∀ feature, likeness.Couples Eq (Lower.require feature) (Lower.require feature))
    (hcongruence : Lua.Expr.Congruence likeness.values) {value value' : Lua.Expr}
    (hvalue : likeness.values value value') :
    likeness.Couples likeness.values
      (do return Lua.Expr.call (← env.unpacker) [value])
      (do return Lua.Expr.call (← env.unpacker) [value']) := by
  have hunpacker : likeness.Couples Eq env.unpacker env.unpacker := by
    unfold unpacker
    split
    · exact .pure rfl
    · exact .bind_eq (hrequire _) fun _ => .pure rfl
  apply Couples.bind_eq hunpacker
  intro function
  exact .pure (hcongruence.call (hcongruence.refl function) (.cons hvalue .nil))

end Same

section Identifiers

variable {likeness : Likeness} {env env' : Environment} {identifier identifier' : Identifier}

/-! Nothing that is asked about an identifier depends on a name. -/

theorem Mirrors.query_eq {α : Type} (hmirrors : Mirrors likeness env env')
    (query : Checker → Bindings → α)
    (hblind : ∀ checker bindings, query checker.anonymous bindings = query checker bindings) :
    query env'.checker env'.bindings = query env.checker env.bindings := by
  rw [← hblind, ← hblind env.checker, hmirrors.checker, hmirrors.bindings]

theorem Mirrors.symbolAt_eq (hmirrors : Mirrors likeness env env')
    (hrenames : identifier.Renames identifier') :
    env'.checker.symbolAt identifier'.node = env.checker.symbolAt identifier.node := by
  rw [hrenames.node_eq]
  exact hmirrors.query_eq (fun checker _ => checker.symbolAt identifier.node) fun _ _ => rfl

theorem Mirrors.markerOf_eq (hmirrors : Mirrors likeness env env')
    (hrenames : identifier.Renames identifier') :
    env'.markerOf identifier' = env.markerOf identifier := by
  rw [markerOf, hrenames.node_eq]
  exact hmirrors.query_eq
    (fun checker bindings => bindings.extensions.markerOf checker
      (checker.symbolAt identifier.node) (checker.typeAt identifier.node)) fun _ _ => rfl

theorem Mirrors.classify_eq (hmirrors : Mirrors likeness env env')
    (hrenames : identifier.Renames identifier') :
    env'.classify identifier' = env.classify identifier := by
  have hsame : env'.classify identifier' = env'.classify identifier := by
    simp only [classify, markerOf, hrenames.continuesChain_eq, hrenames.node_eq]
  rw [hsame]
  exact hmirrors.query_eq
    (fun checker bindings => classify ⟨checker, bindings, env.options, env.unit⟩ identifier)
    fun _ _ => rfl

theorem Mirrors.couples_reportNotes (hmirrors : Mirrors likeness env env')
    (hrenames : identifier.Renames identifier') (notes : Notes) :
    likeness.Couples Eq (env.reportNotes identifier notes)
      (env'.reportNotes identifier' notes) := by
  obtain ⟨misplaced, deprecated⟩ := notes
  have hdeprecated : likeness.Couples Eq (env.reportNotes identifier ⟨none, deprecated⟩)
      (env'.reportNotes identifier' ⟨none, deprecated⟩) := by
    cases deprecated with
    | none => exact .pure rfl
    | some tag =>
        simp only [reportNotes, hrenames.span_eq]
        exact hmirrors.report _ _
  cases misplaced with
  | none => exact hdeprecated
  | some marker =>
      have hreport := hmirrors.report identifier.span marker.misuse
      nth_rewrite 2 [← hrenames.span_eq] at hreport
      exact .bind_eq hreport fun _ => hdeprecated

theorem Mirrors.couples_requireTypeFeature (hmirrors : Mirrors likeness env env') (type : Ty) :
    likeness.Couples Eq (env.requireTypeFeature type) (env'.requireTypeFeature type) := by
  have hfeature := hmirrors.query_eq
    (fun checker bindings => bindings.builtins.typeFeature? checker type) fun _ _ => rfl
  simp only [requireTypeFeature, hfeature]
  cases env.bindings.builtins.typeFeature? env.checker type with
  | none => exact .pure rfl
  | some feature => exact hmirrors.require feature

theorem Mirrors.couples_identifyAll (hmirrors : Mirrors likeness env env')
    (symbol : Option Symbol) (span : Span) :
    likeness.Couples (Option.Rel likeness.identities) (identifyAll symbol span)
      (identifyAll symbol span) := by
  cases symbol with
  | none => exact .pure .none
  | some symbol =>
      exact .bind (hmirrors.identify symbol span) fun _ _ hidentity => .pure (.some hidentity)

theorem Mirrors.couples_lowerName (hmirrors : Mirrors likeness env env')
    (halike : likeness.Identifiers identifier identifier') (symbol : Option Symbol) :
    likeness.Couples likeness.Words (env.lowerName identifier symbol)
      (env'.lowerName identifier' symbol) := by
  apply Couples.bind (hmirrors.mustMangle halike symbol)
  intro mangled mangled' htext
  rw [halike.1.span_eq]
  apply Couples.bind (hmirrors.couples_identifyAll symbol identifier.span)
  intro identity identity' hidentity
  exact .pure (hmirrors.ident htext (.some halike.2) hidentity rfl)

theorem Mirrors.couples_lowerIdentifier (hmirrors : Mirrors likeness env env')
    (halike : likeness.Identifiers identifier identifier') :
    likeness.Couples likeness.Words (env.lowerIdentifier identifier)
      (env'.lowerIdentifier identifier') := by
  have hrenames := halike.1
  simp only [lowerIdentifier, hmirrors.classify_eq hrenames, hrenames.span_eq]
  cases env.classify identifier with
  | continuation =>
      exact .pure (hmirrors.ident halike.2 .none (.some (hmirrors.identities_refl _)) rfl)
  | marker marker =>
      exact .bind_eq (hmirrors.report _ _) fun _ => .pure (hmirrors.congruence.refl _)
  | builtin feature notes =>
      apply Couples.bind_eq (hmirrors.couples_reportNotes hrenames notes)
      intro _
      apply Couples.bind_eq (hmirrors.require feature)
      intro _
      exact .pure (hmirrors.ident (hmirrors.texts_refl _) (.some halike.2) .none rfl)
  | standard symbol type notes =>
      apply Couples.bind_eq (hmirrors.couples_reportNotes hrenames notes)
      intro _
      apply Couples.bind_eq (hmirrors.couples_requireTypeFeature type)
      intro _
      exact hmirrors.couples_lowerName halike symbol

/-! Identifiers read as values. -/

theorem Mirrors.couples_lowerBuiltinValue (hmirrors : Mirrors likeness env env')
    (halike : likeness.Identifiers identifier identifier') :
    likeness.Couples (Option.Rel likeness.values) (env.lowerBuiltinValue identifier)
      (env'.lowerBuiltinValue identifier') := by
  have hrefl := hmirrors.congruence.refl
  simp only [lowerBuiltinValue, hmirrors.symbolAt_eq halike.1, halike.1.span_eq]
  cases env.checker.symbolAt identifier.node with
  | none => exact .pure .none
  | some symbol =>
      have hvalue := hmirrors.query_eq
        (fun checker bindings => bindings.builtins.value? checker symbol) fun _ _ => rfl
      simp only [hvalue]
      cases env.bindings.builtins.value? env.checker symbol with
      | none => exact .pure .none
      | some value =>
          cases value with
          | notANumber => exact .pure (.some (hrefl _))
          | infinity => exact .pure (.some (hrefl _))
          | globalThis =>
              apply Couples.bind (hmirrors.identify symbol identifier.span)
              intro identity identity' hidentity
              exact .pure (.some (hmirrors.ident (hmirrors.texts_refl _) (.some halike.2)
                (.some hidentity) rfl))

theorem Mirrors.couples_lowerExport (hmirrors : Mirrors likeness env env')
    (halike : likeness.Identifiers identifier identifier') {symbol : Symbol}
    {path path' : ExportPath} (hpath : env.checker.exportPath symbol = .ok (some path))
    (hpath' : env'.checker.exportPath symbol = .ok (some path')) :
    likeness.Couples likeness.values (env.lowerExport identifier symbol path)
      (env'.lowerExport identifier' symbol path') := by
  apply Couples.bind (hmirrors.mustMangle halike (some symbol))
  intro _ _ _
  rw [halike.1.span_eq]
  apply Couples.bind (hmirrors.identify symbol identifier.span)
  intro _ _ _
  -- Tables are keyed by the names of symbols: spelling and identity do not show in a read.
  exact .pure (hmirrors.access hpath hpath')

inductive ExportsAlike (env env' : Environment) :
    Except LoweringError (Option (Symbol × ExportPath)) →
      Except LoweringError (Option (Symbol × ExportPath)) → Prop
  | endless (symbol : Symbol) :
      ExportsAlike env env' (.error (.endlessScopes (env.checker.symbolName symbol)))
        (.error (.endlessScopes (env'.checker.symbolName symbol)))
  | none : ExportsAlike env env' (.ok none) (.ok none)
  | some {symbol : Symbol} {path path' : ExportPath}
      (hpath : env.checker.exportPath symbol = .ok (some path))
      (hpath' : env'.checker.exportPath symbol = .ok (some path')) :
      ExportsAlike env env' (.ok (some (symbol, path))) (.ok (some (symbol, path')))

theorem Mirrors.exportsAlike (hmirrors : Mirrors likeness env env')
    (hrenames : identifier.Renames identifier') :
    ExportsAlike env env' (env.exportOf identifier) (env'.exportOf identifier') := by
  simp only [exportOf, hmirrors.symbolAt_eq hrenames]
  cases env.checker.symbolAt identifier.node with
  | none => exact .none
  | some symbol =>
      have hpaths := Checker.exportPath_of_anonymous_eq hmirrors.checker symbol
      simp only
      generalize hpath : env.checker.exportPath symbol = answer at hpaths ⊢
      generalize hpath' : env'.checker.exportPath symbol = answer' at hpaths ⊢
      cases hpaths with
      | endless => exact .endless symbol
      | none => exact .none
      | some => exact .some hpath hpath'

theorem Mirrors.couples_lowerRead (hmirrors : Mirrors likeness env env')
    (halike : likeness.Identifiers identifier identifier') :
    likeness.Couples likeness.values (env.lowerRead identifier) (env'.lowerRead identifier') := by
  have hexports := hmirrors.exportsAlike halike.1
  unfold lowerRead
  generalize env.exportOf identifier = answer at hexports ⊢
  generalize env'.exportOf identifier' = answer' at hexports ⊢
  cases hexports with
  | endless symbol => exact .throw (hmirrors.errors_endless symbol)
  | some hpath hpath' => exact hmirrors.couples_lowerExport halike hpath hpath'
  | none =>
      simp only
      rw [halike.1.isUndefined_eq]
      cases identifier.isUndefined with
      | true => exact .pure (hmirrors.congruence.refl _)
      | false =>
          apply Couples.bind (hmirrors.couples_lowerBuiltinValue halike)
          intro found found' hfound
          cases hfound with
          | some hvalue => exact .pure hvalue
          | none =>
              exact .bind (hmirrors.couples_lowerIdentifier halike) fun _ _ hwords => .pure hwords

end Identifiers

section Expressions

variable {likeness : Likeness} {env env' : Environment}

theorem Mirrors.calleeMarker_eq (hmirrors : Mirrors likeness env env')
    {callee callee' : Source.Expr} (halike : callee.Alike likeness.Identifiers callee') :
    env'.calleeMarker callee' = env.calleeMarker callee := by
  cases halike with
  | ident halike => exact hmirrors.markerOf_eq halike.1
  | call => rfl
  | spread => rfl
  | numeric => rfl
  | string => rfl

theorem Mirrors.isVarargs_eq (hmirrors : Mirrors likeness env env')
    {inner inner' : Source.Expr} (halike : inner.Alike likeness.Identifiers inner') :
    env'.isVarargs inner' = env.isVarargs inner := by
  cases halike with
  | ident halike => simp only [isVarargs, hmirrors.markerOf_eq halike.1]
  | call => rfl
  | spread => rfl
  | numeric => rfl
  | string => rfl

theorem Mirrors.couples_applyOperator (hmirrors : Mirrors likeness env env')
    (operator : MappedOperator) {operands operands' : List Lua.Expr}
    (hoperands : List.Forall₂ likeness.values operands operands') :
    likeness.Couples likeness.values (applyOperator operator operands)
      (applyOperator operator operands') := by
  have hwrong : likeness.Couples likeness.values
      (throw (.wrongArity operator.declaration operator.arity operands.length))
      (throw (.wrongArity operator.declaration operator.arity operands'.length)) := by
    rw [hoperands.length_eq]
    exact .throw (hmirrors.errors_refl _)
  unfold applyOperator
  cases operator.form with
  | binary op =>
      cases hoperands with
      | nil => exact hwrong
      | cons hleft hrest =>
          cases hrest with
          | nil => exact hwrong
          | cons hright hmore =>
              cases hmore with
              | nil => exact .pure (hmirrors.congruence.binary hleft hright)
              | cons => exact hwrong
  | unary op =>
      cases hoperands with
      | nil => exact hwrong
      | cons hoperand hrest =>
          cases hrest with
          | nil => exact .pure (hmirrors.congruence.unary hoperand)
          | cons => exact hwrong

theorem Mirrors.couples_applyTableAccess (hmirrors : Mirrors likeness env env')
    (access : TableAccess) {operands operands' : List Lua.Expr}
    (hoperands : List.Forall₂ likeness.values operands operands') :
    likeness.Couples likeness.values (applyTableAccess access operands)
      (applyTableAccess access operands') := by
  have hwrong : likeness.Couples likeness.values
      (throw (.wrongArity access.declaration TableAccess.arity operands.length))
      (throw (.wrongArity access.declaration TableAccess.arity operands'.length)) := by
    rw [hoperands.length_eq]
    exact .throw (hmirrors.errors_refl _)
  have hcongruence := hmirrors.congruence
  cases hoperands with
  | nil => exact hwrong
  | cons htable hrest =>
      cases hrest with
      | nil => exact hwrong
      | cons hkey hmore =>
          cases hmore with
          | cons => exact hwrong
          | nil =>
              have hindex := hcongruence.index htable hkey
              cases access with
              | get => exact .pure hindex
              | has => exact .pure (hcongruence.binary hindex (hcongruence.refl _))

mutual

theorem Mirrors.couples_lower (hmirrors : Mirrors likeness env env') {expr expr' : Source.Expr}
    (halike : expr.Alike likeness.Identifiers expr') :
    likeness.Couples likeness.values (env.lower expr) (env'.lower expr') := by
  cases halike with
  | ident halike =>
      simp only [lower]
      exact hmirrors.couples_lowerRead halike
  | numeric value span =>
      simp only [lower]
      exact .pure (hmirrors.congruence.refl _)
  | string value span =>
      simp only [lower]
      exact .pure (hmirrors.congruence.refl _)
  | spread span hinner =>
      simp only [lower, hmirrors.isVarargs_eq hinner]
      split
      · exact .pure (hmirrors.congruence.refl _)
      · exact .bind (hmirrors.couples_lower hinner) fun _ _ hvalue => hmirrors.unpack hvalue
  | @call callee callee' arguments arguments' span hcallee harguments =>
      have hcongruence := hmirrors.congruence
      have hall := hmirrors.couples_lowerAll harguments
      have hplain : likeness.Couples likeness.values
          (do
            let function ← env.lower callee
            return Lua.Expr.call function (← env.lowerAll arguments))
          (do
            let function ← env'.lower callee'
            return Lua.Expr.call function (← env'.lowerAll arguments')) :=
        .bind (hmirrors.couples_lower hcallee) fun _ _ hfunction =>
          .bind hall fun _ _ hvalues => .pure (hcongruence.call hfunction hvalues)
      simp only [lower, hmirrors.calleeMarker_eq hcallee]
      cases env.calleeMarker callee with
      | none => exact hplain
      | some marker =>
          cases marker with
          | multiReturn => exact .bind hall fun _ _ hvalues => .pure (hcongruence.multiple hvalues)
          | operator operator =>
              simp only [← harguments.length_eq]
              split
              · exact .bind_eq (hmirrors.reportUnsupported operator span) fun _ =>
                  .bind hall fun _ _ hvalues => hmirrors.couples_applyOperator operator hvalues
              · exact .throw (hmirrors.errors_refl _)
          | tableAccess access =>
              exact .bind hall fun _ _ hvalues => hmirrors.couples_applyTableAccess access hvalues
          | vararg => exact hplain
          | range => exact .bind_eq (hmirrors.report _ _) fun _ => .pure (hcongruence.refl _)

theorem Mirrors.couples_lowerAll (hmirrors : Mirrors likeness env env')
    {exprs exprs' : List Source.Expr}
    (halike : Source.Expr.AlikeAll likeness.Identifiers exprs exprs') :
    likeness.Couples (List.Forall₂ likeness.values) (env.lowerAll exprs)
      (env'.lowerAll exprs') := by
  cases halike with
  | nil =>
      simp only [lowerAll]
      exact .pure .nil
  | cons hfirst hrest =>
      simp only [lowerAll]
      exact .bind (hmirrors.couples_lower hfirst) fun _ _ hvalue =>
        .bind (hmirrors.couples_lowerAll hrest) fun _ _ hvalues => .pure (.cons hvalue hvalues)

end

end Expressions

end Environment

end LuaLowering
