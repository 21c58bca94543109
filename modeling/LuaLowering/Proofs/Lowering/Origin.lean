import LuaLowering.Lowering.Expr
import LuaLowering.Proofs.Lowering.Names
import LuaLowering.Proofs.Occurrence

namespace LuaLowering.Environment

open Lower

/-! Where the names in emitted code come from. -/

/-- The origins of a name in the code emitted for an expression with the given identifiers. -/
inductive NameOrigin (env : Environment) (identifiers : List Identifier) : String → Prop
  | inserted {name : String} (hname : name ∈ insertedNames) : NameOrigin env identifiers name
  | placeholder : NameOrigin env identifiers Lua.Ident.placeholderText
  | namespaceRoot (name : String) : NameOrigin env identifiers (Lua.emit name)
  | temporary {identifier : Identifier} (hmem : identifier ∈ identifiers)
      (hchain : identifier.continuesChain = true) : NameOrigin env identifiers identifier.text
  | spelled {identifier : Identifier} (hmem : identifier ∈ identifiers) :
      NameOrigin env identifiers (env.spelling identifier)

theorem NameOrigin.mono {env : Environment} {fewer more : List Identifier} {name : String}
    (horigin : env.NameOrigin fewer name) (hsubset : fewer ⊆ more) : env.NameOrigin more name := by
  cases horigin with
  | inserted hname => exact .inserted hname
  | placeholder => exact .placeholder
  | namespaceRoot name => exact .namespaceRoot name
  | temporary hmem hchain => exact .temporary (hsubset hmem) hchain
  | spelled hmem => exact .spelled (hsubset hmem)

def NamesFrom (env : Environment) (identifiers : List Identifier) (words : List Lua.Ident) :
    Prop :=
  ∀ word ∈ words, env.NameOrigin identifiers word.text

namespace NamesFrom

variable {env : Environment} {identifiers fewer : List Identifier} {words others : List Lua.Ident}

theorem nil : env.NamesFrom identifiers [] := by
  intro word hmem
  cases hmem

theorem singleton {word : Lua.Ident} (horigin : env.NameOrigin identifiers word.text) :
    env.NamesFrom identifiers [word] := by
  intro other hmem
  rw [List.mem_singleton.mp hmem]
  exact horigin

theorem append (hwords : env.NamesFrom identifiers words)
    (hothers : env.NamesFrom identifiers others) : env.NamesFrom identifiers (words ++ others) := by
  intro word hmem
  rcases List.mem_append.mp hmem with hleft | hright
  · exact hwords word hleft
  · exact hothers word hright

theorem mono (hwords : env.NamesFrom fewer words) (hsubset : fewer ⊆ identifiers) :
    env.NamesFrom identifiers words :=
  fun word hmem => (hwords word hmem).mono hsubset

theorem name {text : String} (hname : text ∈ insertedNames) :
    env.NamesFrom identifiers (Lua.Expr.name text).idents := by
  rw [Lua.Expr.idents_name]
  exact singleton (.inserted hname)

end NamesFrom

/-! Reads through an export table show the name of the outermost table only. -/

theorem namesFrom_root (env : Environment) (identifiers : List Identifier) (name : String) :
    env.NamesFrom identifiers (ExportPath.root name).idents := by
  unfold ExportPath.root
  split
  · rename_i htable
    rw [htable]
    exact .name (by decide)
  · cases hmangling : Lua.needsMangling name with
    | true =>
        simp only [if_true, Lua.Expr.idents]
        apply NamesFrom.singleton
        rw [← Lua.emit_of_needsMangling hmangling]
        exact .namespaceRoot name
    | false =>
        simp only [Bool.false_eq_true, if_false, Lua.Expr.idents_name]
        apply NamesFrom.singleton
        have hroot : env.NameOrigin identifiers (Lua.emit name) := .namespaceRoot name
        rwa [Lua.emit_of_not_needsMangling hmangling] at hroot

theorem namesFrom_access (env : Environment) (identifiers : List Identifier) (path : ExportPath)
    (word : Lua.Ident) : env.NamesFrom identifiers (path.access word).idents := by
  rw [ExportPath.access, Lua.Expr.idents_field]
  unfold ExportPath.table
  cases path.segments with
  | nil => exact .name (by decide)
  | cons first rest =>
      simp only [Lua.Expr.idents_foldl_field]
      exact env.namesFrom_root identifiers first

theorem namesFrom_lowerExport (env : Environment) (identifiers : List Identifier)
    (identifier : Identifier) (symbol : Symbol) (path : ExportPath) :
    Yields (env.lowerExport identifier symbol path) fun value =>
      env.NamesFrom identifiers value.idents :=
  Yields.bind_any fun _ => Yields.bind_any fun _ =>
    Yields.pure (env.namesFrom_access identifiers path _)

/-! Identifiers. -/

theorem nameOrigin_lowerIdentifier (env : Environment) {identifiers : List Identifier}
    {identifier : Identifier} (hmem : identifier ∈ identifiers) :
    Yields (env.lowerIdentifier identifier) fun word => env.NameOrigin identifiers word.text := by
  have hkind := env.classifies_classify identifier
  rw [lowerIdentifier]
  generalize env.classify identifier = kind at hkind
  cases hkind with
  | continuation hchain => exact Yields.pure (.temporary hmem hchain)
  | marker => exact Yields.bind_any fun _ => Yields.pure .placeholder
  | builtin =>
      have hentry : Feature.promise.entryPoint ∈ insertedNames := by decide
      exact Yields.bind_any fun _ => Yields.bind_any fun _ => Yields.pure (.inserted hentry)
  | standard =>
      have hspelling : Yields (env.lowerName identifier (env.checker.symbolAt identifier.node))
          fun word => env.NameOrigin identifiers word.text := by
        refine (env.text_lowerName identifier _).mono ?_
        intro word htext
        rw [htext]
        exact .spelled hmem
      exact Yields.bind_any fun _ => Yields.bind_any fun _ => hspelling

theorem namesFrom_lowerBuiltinValue (env : Environment) (identifiers : List Identifier)
    (identifier : Identifier) :
    Yields (env.lowerBuiltinValue identifier) fun found =>
      ∀ value, found = some value → env.NamesFrom identifiers value.idents := by
  unfold lowerBuiltinValue
  cases env.checker.symbolAt identifier.node with
  | none => exact Yields.pure (by simp)
  | some symbol =>
      simp only
      cases env.bindings.builtins.value? env.checker symbol with
      | none => exact Yields.pure (by simp)
      | some builtin =>
          cases builtin with
          | notANumber =>
              refine Yields.pure ?_
              rintro value ⟨⟩
              exact .nil
          | infinity =>
              refine Yields.pure ?_
              rintro value ⟨⟩
              rw [Lua.Expr.idents_field]
              exact .name (by decide)
          | globalThis =>
              refine Yields.bind_any fun identity => Yields.pure ?_
              rintro value ⟨⟩
              have hglobal : "_G" ∈ insertedNames := by decide
              exact .singleton (.inserted hglobal)

theorem namesFrom_lowerRead (env : Environment) {identifiers : List Identifier}
    {identifier : Identifier} (hmem : identifier ∈ identifiers) :
    Yields (env.lowerRead identifier) fun value => env.NamesFrom identifiers value.idents := by
  unfold lowerRead
  split
  · exact Yields.throw _
  · exact env.namesFrom_lowerExport identifiers identifier _ _
  · split
    · exact Yields.pure .nil
    · refine Yields.bind (env.namesFrom_lowerBuiltinValue identifiers identifier) ?_
      intro found hfound
      cases found with
      | some value => exact Yields.pure (hfound value rfl)
      | none =>
          refine Yields.bind (env.nameOrigin_lowerIdentifier hmem) ?_
          intro word horigin
          exact Yields.pure (.singleton horigin)

/-! Operators, table accesses and loops put their operands together and add no name. -/

section Assembly

variable {env : Environment} {identifiers : List Identifier} {operands : List Lua.Expr}

theorem namesFrom_applyOperator (operator : MappedOperator)
    (hoperands : env.NamesFrom identifiers (Lua.Expr.identsAll operands)) :
    Yields (applyOperator operator operands) fun value =>
      env.NamesFrom identifiers value.idents := by
  unfold applyOperator
  split
  · refine Yields.pure ?_
    simpa [Lua.Expr.idents, Lua.Expr.identsAll] using hoperands
  · refine Yields.pure ?_
    simpa [Lua.Expr.idents, Lua.Expr.identsAll] using hoperands
  · exact Yields.throw _

theorem namesFrom_applyTableAccess (access : TableAccess)
    (hoperands : env.NamesFrom identifiers (Lua.Expr.identsAll operands)) :
    Yields (applyTableAccess access operands) fun value =>
      env.NamesFrom identifiers value.idents := by
  unfold applyTableAccess
  split
  · cases access <;>
    · refine Yields.pure ?_
      simpa [Lua.Expr.idents, Lua.Expr.identsAll] using hoperands
  · exact Yields.throw _

theorem namesFrom_numericRange
    (hoperands : env.NamesFrom identifiers (Lua.Expr.identsAll operands)) :
    Yields (numericRange operands) fun value => env.NamesFrom identifiers value.idents := by
  unfold numericRange
  split
  · refine Yields.pure ?_
    simpa [Lua.Expr.idents, Lua.Expr.identsAll, Lua.Expr.identsStep] using hoperands
  · refine Yields.pure ?_
    simpa [Lua.Expr.idents, Lua.Expr.identsAll, Lua.Expr.identsStep] using hoperands
  · exact Yields.throw _

end Assembly

theorem namesFrom_unpacker (env : Environment) (identifiers : List Identifier) :
    Yields env.unpacker fun value => env.NamesFrom identifiers value.idents := by
  unfold unpacker
  cases htarget : env.options.luaTarget <;> simp only [Lua.Target.unpack?]
  case universal => exact Yields.bind_any fun _ => Yields.pure (.name (by decide))
  case lua50 | lua51 | luaJit => exact Yields.pure (.name (by decide))
  case lua52 | lua53 | lua54 =>
    refine Yields.pure ?_
    rw [Lua.Expr.idents_field]
    exact .name (by decide)

/-! Expressions.  The induction runs through the expressions and the lists of their arguments at
once, as lowering does. -/

mutual

theorem namesFrom_lower (env : Environment) (expr : Source.Expr) :
    Yields (env.lower expr) fun value => env.NamesFrom expr.identifiers value.idents := by
  cases expr with
  | ident identifier =>
      simp only [lower, Source.Expr.identifiers]
      exact env.namesFrom_lowerRead (List.mem_singleton.mpr rfl)
  | numeric value span =>
      simp only [lower]
      exact Yields.pure .nil
  | string value span =>
      simp only [lower]
      exact Yields.pure .nil
  | spread inner span =>
      simp only [lower, Source.Expr.identifiers]
      split
      · exact Yields.pure .nil
      · refine Yields.bind (env.namesFrom_lower inner) ?_
        intro value hvalue
        refine Yields.bind (env.namesFrom_unpacker inner.identifiers) ?_
        intro unpacker hunpacker
        refine Yields.pure ?_
        simp only [Lua.Expr.idents, Lua.Expr.identsAll, List.append_nil]
        exact hunpacker.append hvalue
  | call callee arguments span =>
      have harguments :
          Yields (env.lowerAll arguments) fun values =>
            env.NamesFrom (Source.Expr.call callee arguments span).identifiers
              (Lua.Expr.identsAll values) := by
        refine (env.namesFrom_lowerAll arguments).mono ?_
        intro values hvalues
        simp only [Source.Expr.identifiers]
        exact hvalues.mono (List.subset_append_right _ _)
      have hplain :
          Yields (do
            let function ← env.lower callee
            return Lua.Expr.call function (← env.lowerAll arguments))
          fun value =>
            env.NamesFrom (Source.Expr.call callee arguments span).identifiers value.idents := by
        refine Yields.bind (env.namesFrom_lower callee) ?_
        intro function hfunction
        refine Yields.bind harguments ?_
        intro values hvalues
        refine Yields.pure ?_
        simp only [Lua.Expr.idents]
        refine NamesFrom.append ?_ hvalues
        simp only [Source.Expr.identifiers]
        exact hfunction.mono (List.subset_append_left _ _)
      simp only [lower]
      cases env.calleeMarker callee with
      | none => exact hplain
      | some marker =>
          cases marker with
          | multiReturn =>
              refine Yields.bind harguments ?_
              intro values hvalues
              exact Yields.pure hvalues
          | operator operator =>
              simp only
              split
              · refine Yields.bind_any fun _ => Yields.bind harguments ?_
                intro values hvalues
                exact namesFrom_applyOperator operator hvalues
              · exact Yields.throw _
          | tableAccess access =>
              refine Yields.bind harguments ?_
              intro values hvalues
              exact namesFrom_applyTableAccess access hvalues
          | vararg => exact hplain
          | range => exact Yields.bind_any fun _ => Yields.pure (.singleton .placeholder)

theorem namesFrom_lowerAll (env : Environment) (exprs : List Source.Expr) :
    Yields (env.lowerAll exprs) fun values =>
      env.NamesFrom (Source.Expr.identifiersAll exprs) (Lua.Expr.identsAll values) := by
  cases exprs with
  | nil =>
      simp only [lowerAll]
      exact Yields.pure .nil
  | cons first rest =>
      simp only [lowerAll, Source.Expr.identifiersAll]
      refine Yields.bind (env.namesFrom_lower first) ?_
      intro value hvalue
      refine Yields.bind (env.namesFrom_lowerAll rest) ?_
      intro values hvalues
      refine Yields.pure ?_
      simp only [Lua.Expr.identsAll]
      exact (hvalue.mono (List.subset_append_left _ _)).append
        (hvalues.mono (List.subset_append_right _ _))

end

theorem namesFrom_lowerIterable (env : Environment) (iterable : Source.Expr) :
    Yields (env.lowerIterable iterable) fun value =>
      env.NamesFrom iterable.identifiers value.idents := by
  cases iterable with
  | call callee arguments span =>
      simp only [lowerIterable]
      split
      · split
        · refine Yields.bind (env.namesFrom_lowerAll arguments) ?_
          intro values hvalues
          apply namesFrom_numericRange
          simp only [Source.Expr.identifiers]
          exact hvalues.mono (List.subset_append_right _ _)
        · exact Yields.throw _
      · exact env.namesFrom_lower _
  | ident identifier => exact env.namesFrom_lower _
  | spread inner span => exact env.namesFrom_lower _
  | numeric value span => exact env.namesFrom_lower _
  | string value span => exact env.namesFrom_lower _

/-! Every origin gives valid names, once temporaries and respelled references are left out. -/

theorem NameOrigin.isIdentifier {env : Environment} {identifiers : List Identifier} {name : String}
    (horigin : env.NameOrigin identifiers name)
    (hchain : ∀ identifier ∈ identifiers, identifier.continuesChain = false)
    (hspelled : ∀ identifier ∈ identifiers, env.SpelledAsDeclared identifier) :
    Lua.isIdentifier name = true := by
  cases horigin with
  | inserted hname =>
      have hvalid : ∀ inserted ∈ insertedNames, Lua.isIdentifier inserted = true := by decide
      exact hvalid name hname
  | placeholder => decide
  | namespaceRoot root => exact Lua.isIdentifier_emit root
  | temporary hmem htemporary =>
      rw [hchain _ hmem] at htemporary
      contradiction
  | spelled hmem => exact isIdentifier_spelling (hspelled _ hmem)

theorem isIdentifier_of_mem_idents_lower {env : Environment} {expr : Source.Expr}
    {state : UnitState}
    (hchain : ∀ identifier ∈ expr.identifiers, identifier.continuesChain = false)
    (hspelled : ∀ identifier ∈ expr.identifiers, env.SpelledAsDeclared identifier) :
    (∀ value after, (env.lower expr).outcome state = (.ok value, after) →
      ∀ word ∈ value.idents, Lua.isIdentifier word.text = true) ∧
    (∀ value after, (env.lowerIterable expr).outcome state = (.ok value, after) →
      ∀ word ∈ value.idents, Lua.isIdentifier word.text = true) := by
  constructor
  · intro value after hrun word hmem
    exact (env.namesFrom_lower expr hrun word hmem).isIdentifier hchain hspelled
  · intro value after hrun word hmem
    exact (env.namesFrom_lowerIterable expr hrun word hmem).isIdentifier hchain hspelled

def spreadEnd : Source.Expr :=
  .call (.ident keptEnd) [.spread (.ident ownEnd) ownEnd.span] keptEnd.span

theorem isIdentifier_of_mem_idents_spreadEnd :
    ∃ value after,
      (ambientEnd.lower spreadEnd).outcome {} = (.ok value, after) ∧
      value.idents.map Lua.Ident.text = ["____end", "__TS__Unpack", "____end"] ∧
      ∀ word ∈ value.idents, Lua.isIdentifier word.text = true := by
  have hchain : ∀ identifier ∈ spreadEnd.identifiers, identifier.continuesChain = false := by
    decide
  have hspelled : ∀ identifier ∈ spreadEnd.identifiers,
      ambientEnd.SpelledAsDeclared identifier := by
    intro identifier hmem symbol hsymbol
    have hidentifier : identifier = keptEnd ∨ identifier = ownEnd := by
      simpa [spreadEnd, Source.Expr.identifiers, Source.Expr.identifiersAll] using hmem
    rcases hidentifier with rfl | rfl
    · cases hsymbol
      decide
    · cases hsymbol
      decide
  obtain ⟨value, after, hrun, htexts⟩ : ∃ value after,
      (ambientEnd.lower spreadEnd).outcome {} = (.ok value, after) ∧
      value.idents.map Lua.Ident.text = ["____end", "__TS__Unpack", "____end"] :=
    ⟨_, _, rfl, rfl⟩
  exact ⟨value, after, hrun, htexts,
    (isIdentifier_of_mem_idents_lower hchain hspelled).1 value after hrun⟩

end LuaLowering.Environment
