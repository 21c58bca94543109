import LuaLowering.Proofs.Export.Walk
import LuaLowering.Proofs.Lowering.Names
import LuaLowering.Proofs.Occurrence
import LuaLowering.Proofs.Program.Growth
import Mathlib.Logic.Relation

namespace LuaLowering

/-! A read of a symbol that is exported from a namespace begins with the table of the outermost
namespace around it.  That table is the namespace's own variable, so it has to be written as the
namespace is. -/

/-! The table where a read begins. -/

namespace Checker

variable {checker : Checker} {inner scope : Scope} {symbol : Symbol}

theorem climb_of_nested (hnested : Relation.ReflTransGen checker.Leads inner scope)
    (hkind : (checker.scopeInfo scope).kind = .nameSpace)
    (hstop : ∀ outer, ¬ checker.Leads scope outer) (scopes : Nat) (tables : List String) :
    checker.climb scopes inner tables = .endless ∨
      ∃ rest, checker.climb scopes inner tables =
        .reached ((checker.scopeInfo scope).name :: rest) := by
  -- From the inside out, since that is how the climb goes; the bound may run out on the way.
  induction hnested using Relation.ReflTransGen.head_induction_on generalizing scopes tables with
  | refl =>
      cases scopes with
      | zero => exact Or.inl rfl
      | succ scopes =>
          rw [climb_of_stop hstop, standingIn, hkind]
          exact Or.inr ⟨tables, rfl⟩
  | head hleads _ ih =>
      cases scopes with
      | zero => exact Or.inl rfl
      | succ scopes =>
          rw [climb_of_leads hleads]
          exact ih scopes _

theorem exportPath_of_nested (hexported : checker.isExported symbol = true)
    (hinner : checker.declaringScope symbol = some inner)
    (hnested : Relation.ReflTransGen checker.Leads inner scope)
    (hkind : (checker.scopeInfo scope).kind = .nameSpace)
    (hstop : ∀ outer, ¬ checker.Leads scope outer) :
    (∃ error, checker.exportPath symbol = .error error) ∨
      ∃ rest, checker.exportPath symbol =
        .ok (some ⟨(checker.scopeInfo scope).name :: rest⟩) := by
  simp only [exportPath, hexported, if_true, hinner]
  rcases climb_of_nested hnested hkind hstop maxScopes [] with hclimb | ⟨rest, hclimb⟩
  · exact Or.inl ⟨_, by rw [hclimb]⟩
  · exact Or.inr ⟨rest, by rw [hclimb]⟩

end Checker

namespace ExportPath

theorem idents_access (first : String) (rest : List String) (word : Lua.Ident) :
    ∃ root, (access ⟨first :: rest⟩ word).idents = [root] ∧ root.text = rootText first := by
  obtain ⟨root, hroot, htext⟩ := root_eq_ident first
  refine ⟨root, ?_, htext⟩
  rw [access, Lua.Expr.idents_field, table, Lua.Expr.idents_foldl_field, hroot, Lua.Expr.idents]

/-! Its spelling against that of declarations. -/

theorem rootText_eq_emit_iff {name : String} :
    rootText name = Lua.emit name ↔ name ≠ moduleTable := by
  constructor
  · rintro heq rfl
    rw [rootText_moduleTable] at heq
    exact emit_ne_moduleTable moduleTable heq.symm
  · exact rootText_of_ne

/-- The spelling of a name that exists on the Lua side. -/
def ambientText (name : String) : String :=
  if Lua.isIdentifier name then name else Lua.mangle name

theorem rootText_eq_ambientText_iff {name : String} :
    rootText name = ambientText name ↔
      name = moduleTable ∨ Lua.isIdentifier name = false ∨ Lua.needsMangling name = false := by
  by_cases htable : name = moduleTable
  · have hkept : ambientText moduleTable = moduleTable := by decide
    simp only [htable, rootText_moduleTable, hkept, true_or]
  · rw [rootText_of_ne htable, ambientText]
    cases hmangling : Lua.needsMangling name with
    | false =>
        have hvalid := (Lua.needsMangling_eq_false_iff.mp hmangling).1
        simp [Lua.emit_of_not_needsMangling hmangling, hvalid]
    | true =>
        rw [Lua.emit_of_needsMangling hmangling]
        cases hvalid : Lua.isIdentifier name <;> simp [htable, Lua.mangle_ne_self]

end ExportPath

namespace Environment

open Lower

/-- A read through tables names the outermost one only; a climb without end makes it fail. -/
theorem idents_lowerRead_of_nested {env : Environment} {read : Identifier} {symbol : Symbol}
    {inner scope : Scope} (hsymbol : env.checker.symbolAt read.node = some symbol)
    (hexported : env.checker.isExported symbol = true)
    (hinner : env.checker.declaringScope symbol = some inner)
    (hnested : Relation.ReflTransGen env.checker.Leads inner scope)
    (hkind : (env.checker.scopeInfo scope).kind = .nameSpace)
    (hstop : ∀ outer, ¬ env.checker.Leads scope outer) :
    Yields (env.lowerRead read) fun value =>
      ∃ root, value.idents = [root] ∧
        root.text = ExportPath.rootText (env.checker.scopeInfo scope).name := by
  rcases Checker.exportPath_of_nested hexported hinner hnested hkind hstop with
    ⟨error, hpath⟩ | ⟨rest, hpath⟩
  · simp only [lowerRead, exportOf, hsymbol, hpath, Except.map]
    exact Yields.throw error
  · simp only [lowerRead, exportOf, hsymbol, hpath, Except.map, Option.map_some]
    exact Yields.bind_any fun _ => Yields.bind_any fun _ =>
      Yields.pure (ExportPath.idents_access _ rest _)

/-! References to a namespace.  No library declares it and it is no alias, so that a reference
without a type is an ordinary name. -/

/-- An environment over a program and the library declarations of that program. -/
def IsFor (env : Environment) (program : Program) : Prop :=
  env.checker = program.checker ∧ env.bindings = .ofChecker program.checker

section Namespace

variable {env : Environment} {program : Program} {name : String} {modifiers : Modifiers}
  {scope : Scope} {symbol : Symbol} {reference : Identifier}

theorem aliased_of_hasNamespace (hnamespace : program.HasNamespace name modifiers scope symbol) :
    program.checker.aliased symbol = symbol := by
  obtain ⟨parent, type, hdeclaration⟩ := hnamespace.declaration?_eq
  have htarget : program.aliasTarget? symbol = none := by
    simp only [Program.aliasTarget?, hdeclaration, Option.bind_some]
  exact Program.aliased_of_aliasTarget? htarget

theorem get?_extensions_of_hasNamespace
    (hnamespace : program.HasNamespace name modifiers scope symbol) :
    (ExtensionTable.ofChecker program.checker).get? symbol = none := by
  rw [Option.eq_none_iff_forall_ne_some]
  intro marker hmarker
  obtain ⟨⟨declared, _⟩, _, hfound⟩ := List.mem_filterMap.mp (Entries.mem_of_find?_ofList hmarker)
  obtain ⟨found, hlibrary, hpair⟩ := Option.map_eq_some_iff.mp hfound
  obtain ⟨rfl, _⟩ := Prod.mk.inj hpair
  exact hnamespace.find?_libraryDeclarations_ne (.extensions, declared) hlibrary

theorem markerOf_of_hasNamespace (henv : env.IsFor program)
    (hnamespace : program.HasNamespace name modifiers scope symbol)
    (hsymbol : env.checker.symbolAt reference.node = some symbol)
    (htype : env.checker.typeAt reference.node = Program.unknownType) :
    env.markerOf reference = none := by
  have hunknown : program.checker.typeSymbol Program.unknownType = none :=
    congrArg TypeInfo.symbol hnamespace.typeInfo_unknownType_eq
  rw [markerOf, hsymbol, htype, henv.1, henv.2]
  simp only [Bindings.ofChecker, ExtensionTable.markerOf, Option.bind_some,
    aliased_of_hasNamespace hnamespace, get?_extensions_of_hasNamespace hnamespace, hunknown,
    Option.bind_none, ExtensionTable.stronger, ite_self]

theorem isStandard_of_hasNamespace (henv : env.IsFor program)
    (hnamespace : program.HasNamespace name modifiers scope symbol)
    (hsymbol : env.checker.symbolAt reference.node = some symbol)
    (htype : env.checker.typeAt reference.node = Program.unknownType)
    (hchain : reference.continuesChain = false) : env.IsStandard reference := by
  have hmarker := markerOf_of_hasNamespace henv hnamespace hsymbol htype
  have hunknown : env.checker.isStandardType Program.unknownType = false := by
    rw [henv.1]
    exact congrArg TypeInfo.standard hnamespace.typeInfo_unknownType_eq
  have hsubstitute : env.bindings.builtins.substitute? env.checker
      (env.checker.symbolAt reference.node) (env.checker.typeAt reference.node) = none := by
    rw [hsymbol, htype]
    simp [BuiltinTable.substitute?, hunknown]
  have hspec := env.classifies_classify reference
  generalize hkind : env.classify reference = kind at hspec
  cases hspec with
  | continuation hcontinues =>
      rw [hchain] at hcontinues
      contradiction
  | marker _ hsome =>
      rw [hmarker] at hsome
      contradiction
  | builtin _ _ hfound =>
      rw [hsubstitute] at hfound
      contradiction
  | standard => exact ⟨_, _, _, hkind⟩

theorem spelledAsDeclared_of_hasNamespace (henv : env.IsFor program)
    (hnamespace : program.HasNamespace name modifiers scope symbol)
    (hsymbol : env.checker.symbolAt reference.node = some symbol) (htext : reference.text = name) :
    env.SpelledAsDeclared reference := by
  intro other hother
  obtain rfl := Option.some.inj (hsymbol.symm.trans hother)
  obtain ⟨parent, type, hdeclaration⟩ := hnamespace.declaration?_eq
  rw [htext, henv.1]
  simp [Program.checker, hdeclaration]

theorem isAmbientAt_of_hasNamespace (henv : env.IsFor program)
    (hnamespace : program.HasNamespace name modifiers scope symbol)
    (hsymbol : env.checker.symbolAt reference.node = some symbol) :
    env.isAmbientAt reference = modifiers.ambient := by
  obtain ⟨parent, type, hdeclaration⟩ := hnamespace.declaration?_eq
  rw [isAmbientAt, hsymbol, henv.1]
  simp [Program.checker, hdeclaration]

theorem not_leads_of_hasNamespace
    (hnamespace : program.HasNamespace name modifiers scope symbol)
    (hexported : modifiers.exported = false) (outer : Scope) :
    ¬ program.checker.Leads scope outer := by
  rintro ⟨_, _, own, hown, hleads⟩
  obtain ⟨parent, hinfo⟩ := hnamespace.scopeInfo_eq
  obtain ⟨_, type, hdeclaration⟩ := hnamespace.declaration?_eq
  have hsame : some symbol = some own := by
    rw [← hown]
    exact congrArg ScopeInfo.symbol hinfo.symm
  obtain rfl := Option.some.inj hsame
  simp [Program.checker, hdeclaration, hexported] at hleads

theorem spelling_of_hasNamespace (henv : env.IsFor program)
    (hnamespace : program.HasNamespace name modifiers scope symbol)
    (hsymbol : env.checker.symbolAt reference.node = some symbol) (htext : reference.text = name) :
    env.spelling reference =
      if modifiers.ambient then ExportPath.ambientText name else Lua.emit name := by
  have hspelled := spelledAsDeclared_of_hasNamespace henv hnamespace hsymbol htext
  have hambient := isAmbientAt_of_hasNamespace henv hnamespace hsymbol
  cases hmodifier : modifiers.ambient with
  | false =>
      rw [spelling_of_not_ambient hspelled (hambient.trans hmodifier), htext]
      rfl
  | true =>
      rw [spelling, isRespelled_of_spelledAsDeclared hspelled, hambient, hmodifier, htext]
      cases hvalid : Lua.isIdentifier name <;> simp [ExportPath.ambientText, hvalid]

/-- The table where a read of an exported symbol begins is written as its namespace is, except for
two kinds of names: an ambient name that Lua can write but that is respelled elsewhere, and the
name of the module table for a namespace of the program's own. -/
theorem lowerRead_root_text_eq_iff {read : Identifier} {exported : Symbol} {inner : Scope}
    {state state' after after' : UnitState} {value : Lua.Expr} {word : Lua.Ident}
    (henv : env.IsFor program)
    (hnamespace : program.HasNamespace name modifiers scope symbol)
    (hown : modifiers.exported = false)
    (hexported : program.checker.isExported exported = true)
    (hinner : program.checker.declaringScope exported = some inner)
    (hnested : Relation.ReflTransGen program.checker.Leads inner scope)
    (hread : program.checker.symbolAt read.node = some exported)
    (hsymbol : program.checker.symbolAt reference.node = some symbol)
    (htype : program.checker.typeAt reference.node = Program.unknownType)
    (htext : reference.text = name) (hchain : reference.continuesChain = false)
    (hrun : (env.lowerRead read).outcome state = (.ok value, after))
    (hrun' : (env.lowerIdentifier reference).outcome state' = (.ok word, after')) :
    ∃ root, value.idents = [root] ∧
      (root.text = word.text ↔
        if modifiers.ambient then
          name = ExportPath.moduleTable ∨ Lua.isIdentifier name = false ∨
            Lua.needsMangling name = false
        else name ≠ ExportPath.moduleTable) := by
  obtain ⟨parent, hinfo⟩ := hnamespace.scopeInfo_eq
  have hname : (program.checker.scopeInfo scope).name = name := congrArg ScopeInfo.name hinfo
  have hkind : (program.checker.scopeInfo scope).kind = .nameSpace :=
    congrArg ScopeInfo.kind hinfo
  have hstop := not_leads_of_hasNamespace hnamespace hown
  rw [← henv.1] at hexported hinner hnested hread hsymbol htype hname hkind hstop
  obtain ⟨root, hidents, hroot⟩ :=
    idents_lowerRead_of_nested hread hexported hinner hnested hkind hstop hrun
  refine ⟨root, hidents, ?_⟩
  have hstandard := isStandard_of_hasNamespace henv hnamespace hsymbol htype hchain
  rw [hroot, hname, text_lowerIdentifier_of_isStandard hstandard hrun',
    spelling_of_hasNamespace henv hnamespace hsymbol htext]
  cases modifiers.ambient with
  | false => exact ExportPath.rootText_eq_emit_iff
  | true => exact ExportPath.rootText_eq_ambientText_iff

end Namespace

def ambientPrint : Program :=
  Program.build
    [.file "main.ts" true, .nameSpace ⟨0⟩ "print" { ambient := true },
      .nameSpace ⟨1⟩ "inner" { exported := true }, .declare ⟨2⟩ "x" { exported := true },
      .reference ⟨0⟩ "print", .reference ⟨2⟩ "x"]

def ownPrint : Identifier := { node := ⟨0⟩, text := "print", span := .ofLength 0 5 }

def nestedRead : Identifier := { node := ⟨1⟩, text := "x", span := .ofLength 6 1 }

/-- An ambient `print` is kept, and the table that holds its names is looked for in `____print`. -/
theorem ambientPrint_root_text_ne :
    ∃ word value root after after',
      ((ofProgram ambientPrint).lowerIdentifier ownPrint).outcome {} = (.ok word, after) ∧
      ((ofProgram ambientPrint).lowerRead nestedRead).outcome after = (.ok value, after') ∧
      value.idents = [root] ∧ root.text ≠ word.text := by
  have henv : (ofProgram ambientPrint).IsFor ambientPrint := ⟨rfl, rfl⟩
  have hnamespace : ambientPrint.HasNamespace "print" { ambient := true } ⟨1⟩ ⟨0⟩ :=
    ⟨[.file "main.ts" true], ⟨0⟩, _, rfl, rfl⟩
  have hleads : ambientPrint.checker.Leads ⟨2⟩ ⟨1⟩ := ⟨rfl, rfl, ⟨1⟩, rfl, rfl⟩
  obtain ⟨word, value, after, after', hrun, hrun'⟩ : ∃ word value after after',
      ((ofProgram ambientPrint).lowerIdentifier ownPrint).outcome {} = (.ok word, after) ∧
      ((ofProgram ambientPrint).lowerRead nestedRead).outcome after = (.ok value, after') :=
    ⟨_, _, _, _, rfl, rfl⟩
  obtain ⟨root, hidents, htext⟩ :=
    lowerRead_root_text_eq_iff henv hnamespace rfl rfl rfl (.single hleads) rfl rfl rfl rfl rfl
      hrun' hrun
  refine ⟨word, value, root, after, after', hrun, hrun', hidents, ?_⟩
  rw [ne_eq, htext]
  decide

end Environment

end LuaLowering
