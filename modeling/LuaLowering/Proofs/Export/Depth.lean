import LuaLowering.Proofs.Chain
import LuaLowering.Proofs.Export.Walk
import LuaLowering.Proofs.Program.Growth

namespace LuaLowering

namespace Checker

variable {checker : Checker} {scope outer other : Scope} {visited : List Scope}

/-! A scope is left for one parent only, so a walk that ends is a chain. -/

theorem Leads.unique (hleads : checker.Leads scope outer) (hother : checker.Leads scope other) :
    outer = other :=
  Option.some.inj (hleads.2.1.symm.trans hother.2.1)

theorem rightUnique_leads (checker : Checker) : Relator.RightUnique checker.Leads :=
  fun _ _ _ hleads hother => hleads.unique hother

theorem Walk.exists_chain (hwalk : checker.Walk scope visited) :
    ∃ passed last, Chain checker.Leads scope passed last ∧ visited.length = passed.length + 1 := by
  induction hwalk with
  | stop hstop => exact ⟨[], _, .stop hstop, rfl⟩
  | step hleads _ ih =>
      obtain ⟨passed, last, hchain, hlength⟩ := ih
      exact ⟨_ :: passed, last, .step hleads hchain, congrArg Nat.succ hlength⟩

theorem Walk.not_endless (hwalk : checker.Walk scope visited) : ¬ checker.Endless scope := by
  induction hwalk with
  | stop hstop =>
      intro hendless
      obtain ⟨outer, hleads, _⟩ := hendless.leads
      exact hstop outer hleads
  | step hleads _ ih =>
      intro hendless
      obtain ⟨outer, hleads', houter⟩ := hendless.leads
      obtain rfl := hleads.unique hleads'
      exact ih houter

/-! Climbs are given up exactly on the walks beyond their bound. -/

theorem climb_of_lt_length (hwalk : checker.Walk scope visited) {scopes : Nat}
    (hscopes : scopes < visited.length) (inner : List String) :
    checker.climb scopes scope inner = .endless := by
  induction hwalk generalizing scopes inner with
  | stop hstop =>
      obtain rfl := Nat.lt_one_iff.mp hscopes
      rfl
  | step hleads hwalk ih =>
      cases scopes with
      | zero => rfl
      | succ scopes => rw [climb_of_leads hleads, ih (Nat.lt_of_succ_lt_succ hscopes)]

section Symbol

variable {symbol : Symbol} (hexported : checker.isExported symbol = true)
  (hscope : checker.declaringScope symbol = some scope)
include hexported hscope

theorem exportPath_of_long_walk (hwalk : checker.Walk scope visited)
    (hvisited : maxScopes < visited.length) :
    checker.exportPath symbol = .error (.endlessScopes (checker.symbolName symbol)) := by
  simp only [exportPath, hexported, if_true, hscope, climb_of_lt_length hwalk hvisited]

theorem exportPath_eq_error_iff :
    checker.exportPath symbol = .error (.endlessScopes (checker.symbolName symbol)) ↔
      checker.Endless scope ∨
        ∃ visited, checker.Walk scope visited ∧ maxScopes < visited.length := by
  constructor
  · intro herror
    obtain ⟨_, _, hbeyond⟩ := walksBeyond_of_exportPath herror
    rcases hbeyond with ⟨first, hfirst, hendless⟩ | ⟨visited, hwalk, hvisited⟩
    · obtain rfl := Option.some.inj (hscope.symm.trans hfirst)
      exact Or.inl hendless
    · simp only [WalkOf, hscope] at hwalk
      exact Or.inr ⟨visited, hwalk, hvisited⟩
  · rintro (hendless | ⟨visited, hwalk, hvisited⟩)
    · exact exportPath_of_walksForever hexported ⟨scope, hscope, hendless⟩
    · exact exportPath_of_long_walk hexported hscope hwalk hvisited

end Symbol

end Checker

theorem Scope.index_injective : Function.Injective Scope.index := by
  rintro ⟨first⟩ ⟨second⟩ hindex
  exact congrArg Scope.mk hindex

namespace Program

/-! Walks through programs. -/

theorem index_lt_of_leads {program : Program} {scope outer : Scope}
    (hleads : program.checker.Leads scope outer) : scope.index < program.scopes.size := by
  by_contra hsize
  have hkind : (program.scopeInfo scope).kind = .nameSpace := hleads.1
  rw [scopeInfo, Array.getElem?_eq_none (Nat.le_of_not_lt hsize)] at hkind
  cases hkind

/-- Only the last scope of a walk may be one that the program does not have. -/
theorem length_walk_le {program : Program} {scope : Scope} {visited : List Scope}
    (hwalk : program.checker.Walk scope visited) : visited.length ≤ program.scopes.size + 1 := by
  obtain ⟨passed, last, hchain, hlength⟩ := hwalk.exists_chain
  have hpassed : passed.length ≤ program.scopes.size :=
    hchain.length_le program.checker.rightUnique_leads Scope.index_injective
      fun _ _ => index_lt_of_leads
  omega

/-- An exported symbol has no path exactly if its walk has no end or visits more than 4096 scopes.
In a program with fewer scopes than that, only a walk without end is taken for one. -/
theorem exportPath_error_iff_endless_or_long (program : Program) (symbol : Symbol) (scope : Scope)
    (hexported : program.checker.isExported symbol = true)
    (hscope : program.checker.declaringScope symbol = some scope) :
    (program.checker.exportPath symbol =
        .error (.endlessScopes (program.checker.symbolName symbol)) ↔
      program.checker.Endless scope ∨
        ∃ visited, program.checker.Walk scope visited ∧ 4096 < visited.length) ∧
    (∀ visited, program.checker.Walk scope visited → visited.length ≤ 4096 →
      ∃ found, program.checker.exportPath symbol = .ok found) ∧
    (program.scopes.size < 4096 →
      (program.checker.exportPath symbol =
          .error (.endlessScopes (program.checker.symbolName symbol)) ↔
        program.checker.Endless scope)) := by
  have hiff := Checker.exportPath_eq_error_iff hexported hscope
  refine ⟨hiff, ?_, ?_⟩
  · intro visited hwalk hvisited
    exact ⟨_, Checker.exportPath_of_walk hexported hscope hwalk hvisited⟩
  · intro hsize
    refine hiff.trans (or_iff_left ?_)
    rintro ⟨visited, hwalk, hvisited⟩
    have hlength := length_walk_le hwalk
    simp only [Checker.maxScopes] at hvisited
    omega

/-! Exported namespaces in a module file, each of them but the first inside the one before. -/

def nestedNamespaces (depth : Nat) : List BuildStep :=
  (List.range depth).map fun level =>
    .nameSpace ⟨level⟩ ("n" ++ toString level) { exported := true }

/-- The innermost namespace declares an exported variable. -/
def nested (depth : Nat) : Program :=
  build (.file "main.ts" true :: nestedNamespaces depth ++
    [.declare ⟨depth⟩ "x" { exported := true }])

def nestedDeclaration (level : Nat) : Declaration where
  name := "n" ++ toString level
  scope := some ⟨level⟩
  modifiers := { exported := true }

def nestedScope (level : Nat) : ScopeInfo where
  name := "n" ++ toString level
  kind := .nameSpace
  parent := some ⟨level⟩
  symbol := some ⟨level⟩

theorem build_nestedNamespaces (depth : Nat) :
    (build (.file "main.ts" true :: nestedNamespaces depth)).declarations =
        ((List.range depth).map nestedDeclaration).toArray ∧
      (build (.file "main.ts" true :: nestedNamespaces depth)).scopes =
        ({ name := "main.ts", kind := .moduleFile, parent := none, symbol := none } ::
          (List.range depth).map nestedScope).toArray := by
  induction depth with
  | zero => exact ⟨rfl, rfl⟩
  | succ depth ih =>
      obtain ⟨hdeclarations, hscopes⟩ := ih
      have hbuild : build (.file "main.ts" true :: nestedNamespaces (depth + 1)) =
          ((build (.file "main.ts" true :: nestedNamespaces depth)).addNamespace ⟨depth⟩
            ("n" ++ toString depth) { exported := true }).2 := by
        rw [nestedNamespaces, List.range_succ, List.map_append, ← List.cons_append]
        exact performAll_append empty _ _
      rw [hbuild, List.range_succ, List.map_append, List.map_append]
      generalize build (.file "main.ts" true :: nestedNamespaces depth) = program at *
      have hsize : program.declarations.size = depth := by simp [hdeclarations]
      constructor
      · rw [declarations_addNamespace, hdeclarations]
        exact List.push_toArray _ _
      · rw [scopes_addNamespace, hscopes, hsize]
        exact List.push_toArray _ _

section Nested

variable {depth level : Nat}

theorem build_nested (depth : Nat) :
    nested depth =
      ((build (.file "main.ts" true :: nestedNamespaces depth)).declare ⟨depth⟩ "x"
        { exported := true }).2 :=
  performAll_append empty _ _

theorem declaration?_nested (depth : Nat) :
    (nested depth).declaration? ⟨depth⟩ =
      some { name := "x", scope := some ⟨depth⟩, modifiers := { exported := true } } := by
  have hdeclarations := (build_nestedNamespaces depth).1
  rw [build_nested]
  simp [declaration?, declare, addDeclaration, hdeclarations]

theorem declaration?_nested_of_lt (hlevel : level < depth) :
    (nested depth).declaration? ⟨level⟩ = some (nestedDeclaration level) := by
  rw [build_nested]
  apply getElem?_push_of_eq_some
  simp [(build_nestedNamespaces depth).1, hlevel]

theorem scopeInfo_nested_zero (depth : Nat) :
    (nested depth).scopeInfo ⟨0⟩ =
      { name := "main.ts", kind := .moduleFile, parent := none, symbol := none } := by
  rw [build_nested]
  simp [scopeInfo, declare, addDeclaration, (build_nestedNamespaces depth).2]

theorem scopeInfo_nested_succ (hlevel : level < depth) :
    (nested depth).scopeInfo ⟨level + 1⟩ = nestedScope level := by
  rw [build_nested]
  simp [scopeInfo, declare, addDeclaration, (build_nestedNamespaces depth).2, hlevel]

theorem walk_nested (hlevel : level ≤ depth) :
    ∃ visited, (nested depth).checker.Walk ⟨level⟩ visited ∧ visited.length = level + 1 := by
  induction level with
  | zero =>
      refine ⟨[⟨0⟩], .stop ?_, rfl⟩
      rintro outer ⟨hkind, _⟩
      change ((nested depth).scopeInfo ⟨0⟩).kind = .nameSpace at hkind
      rw [scopeInfo_nested_zero] at hkind
      cases hkind
  | succ level ih =>
      obtain ⟨visited, hwalk, hlength⟩ := ih (Nat.le_of_succ_le hlevel)
      refine ⟨⟨level + 1⟩ :: visited, .step ?_ hwalk, congrArg Nat.succ hlength⟩
      have hscope : (nested depth).checker.scopeInfo ⟨level + 1⟩ = nestedScope level :=
        scopeInfo_nested_succ hlevel
      refine ⟨by rw [hscope]; rfl, by rw [hscope]; rfl, ⟨level⟩, by rw [hscope]; rfl, ?_⟩
      change ((nested depth).declaration? ⟨level⟩ |>.map _).getD false = true
      rw [declaration?_nested_of_lt hlevel]
      rfl

theorem isExported_nested (depth : Nat) : (nested depth).checker.isExported ⟨depth⟩ = true := by
  simp only [checker, declaration?_nested, Option.map_some, Option.getD_some]

theorem declaringScope_nested (depth : Nat) :
    (nested depth).checker.declaringScope ⟨depth⟩ = some ⟨depth⟩ := by
  simp only [checker, declaration?_nested, Option.bind_some]

theorem symbolName_nested (depth : Nat) : (nested depth).checker.symbolName ⟨depth⟩ = "x" := by
  simp only [checker, declaration?_nested, Option.map_some, Option.getD_some]

end Nested

/-- An exported namespace that is its own parent, with an exported variable. -/
def looped : Program :=
  build [.file "main.ts" true, .nameSpace ⟨0⟩ "Loop" { exported := true },
    .setScopeParent ⟨1⟩ (some ⟨1⟩), .declare ⟨1⟩ "y" { exported := true }]

theorem exportPath_nested_and_looped :
    ((nested 4095).checker.isExported ⟨4095⟩ = true ∧
      (nested 4095).checker.declaringScope ⟨4095⟩ = some ⟨4095⟩ ∧
      ∃ found, (nested 4095).checker.exportPath ⟨4095⟩ = .ok found) ∧
    ((nested 4096).checker.isExported ⟨4096⟩ = true ∧
      (nested 4096).checker.declaringScope ⟨4096⟩ = some ⟨4096⟩ ∧
      (nested 4096).checker.exportPath ⟨4096⟩ = .error (.endlessScopes "x")) ∧
    (looped.checker.Endless ⟨1⟩ ∧
      looped.checker.exportPath ⟨1⟩ = .error (.endlessScopes "y")) := by
  refine ⟨⟨isExported_nested _, declaringScope_nested _, ?_⟩,
    ⟨isExported_nested _, declaringScope_nested _, ?_⟩, ?_⟩
  · obtain ⟨visited, hwalk, hlength⟩ := walk_nested (Nat.le_refl 4095)
    have hpath := exportPath_error_iff_endless_or_long (nested 4095) ⟨4095⟩ ⟨4095⟩
      (isExported_nested _) (declaringScope_nested _)
    exact hpath.2.1 visited hwalk (Nat.le_of_eq hlength)
  · obtain ⟨visited, hwalk, hlength⟩ := walk_nested (Nat.le_refl 4096)
    have hlong : 4096 < visited.length := by omega
    have hpath := exportPath_error_iff_endless_or_long (nested 4096) ⟨4096⟩ ⟨4096⟩
      (isExported_nested _) (declaringScope_nested _)
    rw [symbolName_nested] at hpath
    exact hpath.1.mpr (Or.inr ⟨visited, hwalk, hlong⟩)
  · have hendless : looped.checker.Endless ⟨1⟩ :=
      ⟨fun _ => ⟨1⟩, rfl, fun _ => ⟨rfl, rfl, ⟨0⟩, rfl, rfl⟩⟩
    have hpath := exportPath_error_iff_endless_or_long looped ⟨1⟩ ⟨1⟩ rfl rfl
    exact ⟨hendless, (hpath.2.2 (by decide)).mpr hendless⟩

/-- The walk out of 4096 exported namespaces ends in the module file, yet it is taken for one
without end. -/
theorem nested_error_without_endless :
    (nested 4096).checker.isExported ⟨4096⟩ = true ∧
    (nested 4096).checker.declaringScope ⟨4096⟩ = some ⟨4096⟩ ∧
    ¬ ((nested 4096).checker.exportPath ⟨4096⟩ =
          .error (.endlessScopes ((nested 4096).checker.symbolName ⟨4096⟩)) ↔
        (nested 4096).checker.Endless ⟨4096⟩) := by
  refine ⟨isExported_nested _, declaringScope_nested _, ?_⟩
  intro hiff
  obtain ⟨visited, hwalk, hlength⟩ := walk_nested (Nat.le_refl 4096)
  have herror := Checker.exportPath_of_long_walk (isExported_nested 4096)
    (declaringScope_nested 4096) hwalk (hlength ▸ Nat.lt_succ_self 4096)
  exact hwalk.not_endless (hiff.mp herror)

end Program

end LuaLowering
