namespace LuaLowering

/-! Handles of a checked program.  Nothing but their equality is ever used; a handle that was never
given out is as good as any other.  Handles are numbered by natural numbers: that a number of
thirty-two bits wraps at `2 ^ 32` is left out, and no program with fewer handles of each kind shows
the difference. -/

/-- A declared entity. -/
structure Symbol where
  index : Nat
deriving DecidableEq, Repr

def Symbol.debugText (symbol : Symbol) : String := "SymbolRef(" ++ toString symbol.index ++ ")"

/-- A region of the program in which names are declared. -/
structure Scope where
  index : Nat
deriving DecidableEq, Repr

def Scope.debugText (scope : Scope) : String := "ScopeRef(" ++ toString scope.index ++ ")"

structure Ty where
  index : Nat
deriving DecidableEq, Repr

def Ty.debugText (type : Ty) : String := "TypeRef(" ++ toString type.index ++ ")"

/-- An occurrence in the source. -/
structure Node where
  index : Nat
deriving DecidableEq, Repr

def Node.debugText (node : Node) : String := "NodeId(" ++ toString node.index ++ ")"

/-! What lowering may ask about a program.  Lowering sees a program only through these answers. -/

/-- The two libraries whose declarations have a meaning of their own. -/
inductive Library where
  | standard
  | extensions
deriving DecidableEq, Repr

inductive ScopeKind where
  | moduleFile
  | scriptFile
  | nameSpace
  | function
  | block
deriving DecidableEq, Repr

structure ScopeInfo where
  name : String
  kind : ScopeKind
  parent : Option Scope
  /-- The symbol that the scope itself declares in its parent. -/
  symbol : Option Symbol
deriving DecidableEq, Repr

/-- Comment tags of the source language that used to change how a type is lowered. -/
inductive TypeTag where
  | forRange
  | luaIterator
  | luaTable
  | tupleReturn
  | vararg
deriving DecidableEq, Repr

namespace TypeTag

def all : List TypeTag := [.forRange, .luaIterator, .luaTable, .tupleReturn, .vararg]

def name : TypeTag → String
  | forRange => "forRange"
  | luaIterator => "luaIterator"
  | luaTable => "luaTable"
  | tupleReturn => "tupleReturn"
  | vararg => "vararg"

end TypeTag

structure Checker where
  symbolAt : Node → Option Symbol
  typeAt : Node → Ty
  /-- The symbol at the end of a chain of aliases; a symbol that is no alias stands for itself. -/
  aliased : Symbol → Symbol
  symbolName : Symbol → String
  isExported : Symbol → Bool
  /-- Whether the symbol is declared without a definition. -/
  isAmbient : Symbol → Bool
  declaringScope : Symbol → Option Scope
  scopeInfo : Scope → ScopeInfo
  typeSymbol : Ty → Option Symbol
  isStandardType : Ty → Bool
  hasTag : Ty → TypeTag → Bool
  libraryDeclaration : Library → String → Option Symbol

end LuaLowering
