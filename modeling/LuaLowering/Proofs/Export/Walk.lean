import LuaLowering.Export
import LuaLowering.Program.Script
import Mathlib.Order.WellFounded

namespace LuaLowering.Checker

/-! Walks outwards.  A namespace is left for its parent when its own symbol is exported; any other
scope is the last one of the walks that come to it. -/

def Leads (checker : Checker) (scope outer : Scope) : Prop :=
  (checker.scopeInfo scope).kind = .nameSpace ∧ (checker.scopeInfo scope).parent = some outer ∧
    ∃ symbol, (checker.scopeInfo scope).symbol = some symbol ∧ checker.isExported symbol = true

/-- The scopes that a walk visits, for a walk that ends. -/
inductive Walk (checker : Checker) : Scope → List Scope → Prop
  | stop {scope : Scope} (hstop : ∀ outer, ¬ checker.Leads scope outer) : Walk checker scope [scope]
  | step {scope outer : Scope} {visited : List Scope} (hleads : checker.Leads scope outer)
      (hwalk : Walk checker outer visited) : Walk checker scope (scope :: visited)

def Endless (checker : Checker) (scope : Scope) : Prop :=
  ∃ walk : Nat → Scope, walk 0 = scope ∧ ∀ n, checker.Leads (walk n) (walk (n + 1))

theorem Walk.ne_nil {checker : Checker} {scope : Scope} {visited : List Scope}
    (hwalk : checker.Walk scope visited) : visited ≠ [] := by
  cases hwalk <;> simp

theorem Endless.leads {checker : Checker} {scope : Scope} (hendless : checker.Endless scope) :
    ∃ outer, checker.Leads scope outer ∧ checker.Endless outer := by
  obtain ⟨walk, rfl, hleads⟩ := hendless
  exact ⟨walk 1, hleads 0, fun n => walk (n + 1), rfl, fun n => hleads (n + 1)⟩

theorem exists_walk_or_endless (checker : Checker) (scope : Scope) :
    (∃ visited, checker.Walk scope visited) ∨ checker.Endless scope := by
  by_cases hacc : Acc (fun outer scope => checker.Leads scope outer) scope
  · left
    induction hacc with
    | intro scope _ ih =>
        by_cases hleads : ∃ outer, checker.Leads scope outer
        · obtain ⟨outer, hleads⟩ := hleads
          obtain ⟨visited, hwalk⟩ := ih outer hleads
          exact ⟨scope :: visited, .step hleads hwalk⟩
        · exact ⟨[scope], .stop fun outer houter => hleads ⟨outer, houter⟩⟩
  · exact Or.inr (not_acc_iff_exists_descending_chain.mp hacc)

/-! One step of the climb. -/

theorem exportingParent?_eq_some_iff {checker : Checker} {info : ScopeInfo} {outer : Scope} :
    checker.exportingParent? info = some outer ↔
      info.parent = some outer ∧
        ∃ symbol, info.symbol = some symbol ∧ checker.isExported symbol = true := by
  unfold exportingParent?
  cases info.parent with
  | none => simp
  | some parent =>
      cases info.symbol with
      | none => simp
      | some symbol => cases hexported : checker.isExported symbol <;> simp [hexported]

section Climb

variable {checker : Checker} {scope outer : Scope} {visited : List Scope}

theorem climb_of_leads (hleads : checker.Leads scope outer) (scopes : Nat) (inner : List String) :
    checker.climb (scopes + 1) scope inner =
      checker.climb scopes outer ((checker.scopeInfo scope).name :: inner) := by
  obtain ⟨hkind, hparent⟩ := hleads
  simp only [climb, hkind, exportingParent?_eq_some_iff.mpr hparent]

/-- What a climb finds in the scope where it stops. -/
def standingIn (checker : Checker) (scope : Scope) (inner : List String) : Climb :=
  match (checker.scopeInfo scope).kind with
  | .moduleFile => .reached (ExportPath.moduleTable :: inner)
  | .nameSpace => .reached ((checker.scopeInfo scope).name :: inner)
  | .scriptFile | .function | .block => .hidden

theorem climb_of_stop (hstop : ∀ outer, ¬ checker.Leads scope outer) (scopes : Nat)
    (inner : List String) :
    checker.climb (scopes + 1) scope inner = checker.standingIn scope inner := by
  cases hkind : (checker.scopeInfo scope).kind with
  | nameSpace =>
      have hparent : checker.exportingParent? (checker.scopeInfo scope) = none := by
        rw [Option.eq_none_iff_forall_ne_some]
        intro outer hparent
        exact hstop outer ⟨hkind, exportingParent?_eq_some_iff.mp hparent⟩
      simp only [climb, standingIn, hkind, hparent]
  | moduleFile | scriptFile | function | block => simp only [climb, standingIn, hkind]

end Climb

/-! A whole climb. -/

/-- Script files, functions and blocks have no table for exported names. -/
def hasNoTable (checker : Checker) (scope : Scope) : Bool :=
  match (checker.scopeInfo scope).kind with
  | .scriptFile | .function | .block => true
  | .moduleFile | .nameSpace => false

def isModule (checker : Checker) (scope : Scope) : Bool :=
  (checker.scopeInfo scope).kind = .moduleFile

def isNamespace (checker : Checker) (scope : Scope) : Bool :=
  (checker.scopeInfo scope).kind = .nameSpace

/-- The names of the namespaces among the visited scopes, outermost first. -/
def namespaceNames (checker : Checker) (visited : List Scope) : List String :=
  ((visited.filter checker.isNamespace).map fun scope => (checker.scopeInfo scope).name).reverse

/-- The tables along a walk: those of its namespaces, after the one of a module if it ends there. -/
def tablesAlong (checker : Checker) (visited : List Scope) : List String :=
  (if visited.getLast?.any checker.isModule then [ExportPath.moduleTable] else []) ++
    checker.namespaceNames visited

def climbAlong (checker : Checker) (visited : List Scope) (inner : List String) : Climb :=
  if visited.getLast?.any checker.hasNoTable then .hidden
  else .reached (checker.tablesAlong visited ++ inner)

section Along

variable {checker : Checker} {scope : Scope} {visited : List Scope}

theorem tablesAlong_cons (hkind : (checker.scopeInfo scope).kind = .nameSpace)
    (hvisited : visited ≠ []) :
    checker.tablesAlong (scope :: visited) =
      checker.tablesAlong visited ++ [(checker.scopeInfo scope).name] := by
  have hnames : checker.namespaceNames (scope :: visited) =
      checker.namespaceNames visited ++ [(checker.scopeInfo scope).name] := by
    simp [namespaceNames, isNamespace, hkind]
  rw [tablesAlong, List.getLast?_cons_of_ne_nil hvisited, hnames, tablesAlong, List.append_assoc]

theorem climbAlong_singleton (checker : Checker) (scope : Scope) (inner : List String) :
    checker.climbAlong [scope] inner = checker.standingIn scope inner := by
  cases hkind : (checker.scopeInfo scope).kind <;>
    simp [climbAlong, standingIn, hasNoTable, tablesAlong, namespaceNames, isModule, isNamespace,
      hkind]

theorem climbAlong_cons (hkind : (checker.scopeInfo scope).kind = .nameSpace)
    (hvisited : visited ≠ []) (inner : List String) :
    checker.climbAlong (scope :: visited) inner =
      checker.climbAlong visited ((checker.scopeInfo scope).name :: inner) := by
  simp only [climbAlong, List.getLast?_cons_of_ne_nil hvisited, tablesAlong_cons hkind hvisited,
    List.append_assoc, List.singleton_append]

theorem climb_of_walk (hwalk : checker.Walk scope visited) {scopes : Nat}
    (hscopes : visited.length ≤ scopes) (inner : List String) :
    checker.climb scopes scope inner = checker.climbAlong visited inner := by
  -- Each step uses up one scope of the bound and hands one name on to the climb from the parent.
  induction hwalk generalizing scopes inner with
  | stop hstop =>
      cases scopes with
      | zero => contradiction
      | succ scopes => rw [climb_of_stop hstop, climbAlong_singleton]
  | step hleads hwalk ih =>
      cases scopes with
      | zero => contradiction
      | succ scopes =>
          rw [climb_of_leads hleads, climbAlong_cons hleads.1 hwalk.ne_nil,
            ih (Nat.le_of_succ_le_succ hscopes)]

theorem climb_of_endless (hendless : checker.Endless scope) (scopes : Nat) (inner : List String) :
    checker.climb scopes scope inner = .endless := by
  induction scopes generalizing scope inner with
  | zero => rfl
  | succ scopes ih =>
      obtain ⟨outer, hleads, houter⟩ := hendless.leads
      rw [climb_of_leads hleads, ih houter]

theorem tablesAlong_ne_nil (hwalk : checker.Walk scope visited)
    (htable : visited.getLast?.any checker.hasNoTable = false) :
    checker.tablesAlong visited ≠ [] := by
  cases hwalk with
  | stop hstop =>
      cases hkind : (checker.scopeInfo scope).kind <;>
        simp_all [hasNoTable, tablesAlong, namespaceNames, isModule, isNamespace]
  | step hleads hwalk => simp [tablesAlong_cons hleads.1 hwalk.ne_nil]

end Along

/-! Paths of symbols.  The walk of a symbol begins in the scope that declares it. -/

def WalkOf (checker : Checker) (symbol : Symbol) (visited : List Scope) : Prop :=
  match checker.declaringScope symbol with
  | none => visited = []
  | some scope => checker.Walk scope visited

def WalksForever (checker : Checker) (symbol : Symbol) : Prop :=
  ∃ scope, checker.declaringScope symbol = some scope ∧ checker.Endless scope

/-- The walk visits more scopes than that, or has no end at all. -/
def WalksBeyond (checker : Checker) (symbol : Symbol) (scopes : Nat) : Prop :=
  checker.WalksForever symbol ∨
    ∃ visited, checker.WalkOf symbol visited ∧ scopes < visited.length

section Symbol

variable {checker : Checker} {symbol : Symbol} {visited : List Scope}

theorem exportPath_of_not_exported (hexported : checker.isExported symbol = false) :
    checker.exportPath symbol = .ok none := by
  simp [exportPath, hexported]

theorem exportPath_of_undeclared (hscope : checker.declaringScope symbol = none) :
    checker.exportPath symbol = .ok none := by
  simp [exportPath, hscope]

theorem exportPath_of_walk (hexported : checker.isExported symbol = true) {scope : Scope}
    (hscope : checker.declaringScope symbol = some scope) (hwalk : checker.Walk scope visited)
    (hvisited : visited.length ≤ maxScopes) :
    checker.exportPath symbol =
      .ok (if visited.getLast?.any checker.hasNoTable then none
        else some ⟨checker.tablesAlong visited⟩) := by
  simp only [exportPath, hexported, if_true, hscope, climb_of_walk hwalk hvisited, climbAlong]
  cases visited.getLast?.any checker.hasNoTable <;> simp

theorem exportPath_of_walksForever (hexported : checker.isExported symbol = true)
    (hforever : checker.WalksForever symbol) :
    checker.exportPath symbol = .error (.endlessScopes (checker.symbolName symbol)) := by
  obtain ⟨scope, hscope, hendless⟩ := hforever
  simp only [exportPath, hexported, if_true, hscope, climb_of_endless hendless]

theorem walksBeyond_of_exportPath {error : LoweringError}
    (hpath : checker.exportPath symbol = .error error) :
    checker.isExported symbol = true ∧ error = .endlessScopes (checker.symbolName symbol) ∧
      checker.WalksBeyond symbol maxScopes := by
  cases hexported : checker.isExported symbol with
  | false =>
      rw [exportPath_of_not_exported hexported] at hpath
      cases hpath
  | true =>
      cases hscope : checker.declaringScope symbol with
      | none =>
          rw [exportPath_of_undeclared hscope] at hpath
          cases hpath
      | some scope =>
          have hbeyond : checker.WalksBeyond symbol maxScopes := by
            rcases checker.exists_walk_or_endless scope with ⟨visited, hwalk⟩ | hendless
            · refine Or.inr ⟨visited, by simpa only [WalkOf, hscope] using hwalk, ?_⟩
              by_contra hvisited
              rw [exportPath_of_walk hexported hscope hwalk (Nat.le_of_not_lt hvisited)] at hpath
              cases hpath
            · exact Or.inl ⟨scope, hscope, hendless⟩
          refine ⟨rfl, ?_, hbeyond⟩
          simp only [exportPath, hexported, if_true, hscope] at hpath
          split at hpath
          · exact (Except.error.inj hpath).symm
          · cases hpath
          · cases hpath

end Symbol

/-- The path of a symbol lists the tables along its walk.  There is none for a symbol that is not
exported or not declared anywhere, or if the walk ends where there is no table; and a walk without
end is an error for every exported symbol. -/
theorem exportPath_follows_walk (checker : Checker) (symbol : Symbol) :
    (∀ visited, checker.WalkOf symbol visited → visited.length ≤ 4096 →
      ∃ found, checker.exportPath symbol = .ok found ∧
        (found = none ↔
          checker.isExported symbol = false ∨ checker.declaringScope symbol = none ∨
            ∃ last, visited.getLast? = some last ∧ checker.hasNoTable last = true) ∧
        ∀ path, found = some path →
          path.segments ≠ [] ∧
          path.segments =
            (if visited.getLast?.any checker.isModule then ["____exports"] else []) ++
              checker.namespaceNames visited) ∧
    (checker.isExported symbol = false → checker.exportPath symbol = .ok none) ∧
    (checker.WalksForever symbol → checker.isExported symbol = true →
      checker.exportPath symbol = .error (.endlessScopes (checker.symbolName symbol))) := by
  refine ⟨?_, exportPath_of_not_exported, fun hforever hexported =>
    exportPath_of_walksForever hexported hforever⟩
  intro visited hwalk hvisited
  cases hexported : checker.isExported symbol with
  | false => exact ⟨none, exportPath_of_not_exported hexported, by simp, by simp⟩
  | true =>
      unfold WalkOf at hwalk
      cases hscope : checker.declaringScope symbol with
      | none => exact ⟨none, exportPath_of_undeclared hscope, by simp, by simp⟩
      | some scope =>
          rw [hscope] at hwalk
          refine ⟨_, exportPath_of_walk hexported hscope hwalk hvisited, ?_, ?_⟩
          · simp [Option.any_eq_true]
          · intro path hpath
            cases htable : visited.getLast?.any checker.hasNoTable with
            | true => simp [htable] at hpath
            | false =>
                simp only [htable, Bool.false_eq_true, if_false, Option.some.injEq] at hpath
                subst hpath
                exact ⟨tablesAlong_ne_nil hwalk htable, rfl⟩

/-- Two namespaces one in the other, of which the inner one is exported, and an exported namespace
that is its own parent. -/
def nestedAndLooped : Checker :=
  (Program.build
    [.file "main.ts" true, .nameSpace ⟨0⟩ "ModA" {}, .nameSpace ⟨1⟩ "ModB" { exported := true },
      .declare ⟨2⟩ "x" { exported := true }, .nameSpace ⟨0⟩ "Loop" { exported := true },
      .setScopeParent ⟨3⟩ (some ⟨3⟩), .declare ⟨3⟩ "y" { exported := true },
      .declare ⟨3⟩ "z" {}]).checker

theorem nestedAndLooped_endless : nestedAndLooped.Endless ⟨3⟩ :=
  ⟨fun _ => ⟨3⟩, rfl, fun _ => ⟨rfl, rfl, ⟨3⟩, rfl, rfl⟩⟩

theorem exportPath_follows_walk_nestedAndLooped :
    (nestedAndLooped.WalkOf ⟨2⟩ [⟨2⟩, ⟨1⟩] ∧
      nestedAndLooped.exportPath ⟨2⟩ = .ok (some ⟨["ModA", "ModB"]⟩)) ∧
    (nestedAndLooped.WalksForever ⟨4⟩ ∧
      nestedAndLooped.exportPath ⟨4⟩ = .error (.endlessScopes "y")) := by
  constructor
  · have hleads : nestedAndLooped.Leads ⟨2⟩ ⟨1⟩ := ⟨rfl, rfl, ⟨1⟩, rfl, rfl⟩
    have hstop : ∀ outer, ¬ nestedAndLooped.Leads ⟨1⟩ outer := by
      rintro outer ⟨_, _, symbol, ⟨⟩, hexported⟩
      contradiction
    have hwalk : nestedAndLooped.WalkOf ⟨2⟩ [⟨2⟩, ⟨1⟩] := .step hleads (.stop hstop)
    obtain ⟨found, hfound, hnone, hsegments⟩ :=
      (exportPath_follows_walk nestedAndLooped ⟨2⟩).1 _ hwalk (by decide)
    have hsome : found ≠ none := by
      intro heq
      rcases hnone.mp heq with hexported | hscope | ⟨last, ⟨⟩, htable⟩ <;> contradiction
    obtain ⟨path, rfl⟩ := Option.ne_none_iff_exists'.mp hsome
    have hpath : path.segments = ["ModA", "ModB"] := (hsegments path rfl).2
    exact ⟨hwalk, by rw [hfound, ← hpath]⟩
  · have hforever : nestedAndLooped.WalksForever ⟨4⟩ := ⟨⟨3⟩, rfl, nestedAndLooped_endless⟩
    exact ⟨hforever, (exportPath_follows_walk nestedAndLooped ⟨4⟩).2.2 hforever rfl⟩

/-- A symbol that is not exported is read as a variable, though its walk has no end. -/
theorem not_error_of_walksForever_unexported :
    ¬ (nestedAndLooped.WalksForever ⟨5⟩ →
      nestedAndLooped.exportPath ⟨5⟩ =
        .error (.endlessScopes (nestedAndLooped.symbolName ⟨5⟩))) := by
  intro herror
  have hforever : nestedAndLooped.WalksForever ⟨5⟩ := ⟨⟨3⟩, rfl, nestedAndLooped_endless⟩
  have hpath : nestedAndLooped.exportPath ⟨5⟩ = .ok none := exportPath_of_not_exported rfl
  rw [herror hforever] at hpath
  contradiction

end LuaLowering.Checker
