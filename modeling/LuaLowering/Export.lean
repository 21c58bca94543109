import LuaLowering.Error
import LuaLowering.Lua.Expr
import LuaLowering.Lua.Lexeme
import LuaLowering.Program.Checker

namespace LuaLowering

/-! Exported names live in tables: one for a module and one for each namespace around them. -/

/-- The tables from the outermost one to the one that holds an exported name. -/
structure ExportPath where
  segments : List String
deriving DecidableEq, Repr

namespace ExportPath

/-- The table of a module's exports. -/
def moduleTable : String := "____exports"

/-- The outermost table is a variable; a namespace is spelled as its declaration is. -/
def root (name : String) : Lua.Expr :=
  if name = moduleTable then .name name
  else if Lua.needsMangling name then .ident { text := Lua.mangle name, sourceName := some name }
  else .name name

def table (path : ExportPath) : Lua.Expr :=
  match path.segments with
  | [] => .name moduleTable
  | first :: rest => rest.foldl Lua.Expr.field (root first)

/-- Tables are keyed by source names, which need no respelling there. -/
def access (path : ExportPath) (word : Lua.Ident) : Lua.Expr :=
  path.table.field (word.sourceName.getD word.text)

end ExportPath

/-- Where a walk from a scope outwards ends. -/
inductive Climb where
  /-- The walk was given up. -/
  | endless
  /-- In a scope that has no table. -/
  | hidden
  /-- In a scope whose table a variable holds. -/
  | reached (segments : List String)
deriving DecidableEq, Repr

namespace Checker

/-- The parent of a namespace that is itself exported. -/
def exportingParent? (checker : Checker) (info : ScopeInfo) : Option Scope :=
  match info.parent, info.symbol with
  | some parent, some symbol => if checker.isExported symbol then some parent else none
  | _, _ => none

/-- Walks outwards through at most `scopes` scopes, gathering the tables on the way. -/
def climb (checker : Checker) : Nat → Scope → List String → Climb
  | 0, _, _ => .endless
  | scopes + 1, scope, inner =>
      let info := checker.scopeInfo scope
      match info.kind with
      | .moduleFile => .reached (ExportPath.moduleTable :: inner)
      | .scriptFile => .hidden
      | .function => .hidden
      | .block => .hidden
      | .nameSpace =>
          match checker.exportingParent? info with
          | some parent => checker.climb scopes parent (info.name :: inner)
          | none => .reached (info.name :: inner)

/-- Deeper nestings of scopes are taken for a cycle. -/
def maxScopes : Nat := 4096

/-- The path to a symbol, if it is read through a table. -/
def exportPath (checker : Checker) (symbol : Symbol) : Except LoweringError (Option ExportPath) :=
  if checker.isExported symbol then
    match checker.declaringScope symbol with
    | none => .ok none
    | some scope =>
        match checker.climb maxScopes scope [] with
        | .endless => .error (.endlessScopes (checker.symbolName symbol))
        | .hidden => .ok none
        | .reached segments => .ok (some ⟨segments⟩)
  else .ok none

end Checker

end LuaLowering
