import LuaLowering.Entries
import LuaLowering.Program.Checker
import LuaLowering.Source.Expr

namespace LuaLowering

/-! Programs built in memory, one declaration at a time. -/

structure Modifiers where
  exported : Bool := false
  ambient : Bool := false
deriving DecidableEq, Repr

structure Declaration where
  name : String
  scope : Option Scope
  modifiers : Modifiers
  aliasOf : Option Symbol := none
  type : Option Ty := none
deriving DecidableEq, Repr

structure TypeInfo where
  symbol : Option Symbol := none
  standard : Bool := false
  tags : List TypeTag := []
deriving DecidableEq, Repr

/-- Handles are positions in `declarations`, `scopes` and `types`.  Type zero is the unknown type.
Nodes are numbered in order, and their texts are laid out in order with a gap between them. -/
structure Program where
  declarations : Array Declaration := #[]
  scopes : Array ScopeInfo := #[]
  types : Array TypeInfo := #[{}]
  nodeSymbols : Entries Node Symbol := []
  nodeTypes : Entries Node Ty := []
  libraryDeclarations : Entries (Library × String) Symbol := []
  libraryFiles : Entries Library Scope := []
  nodeCount : Nat := 0
  textEnd : Nat := 0
deriving Repr

namespace Program

def empty : Program := {}

/-! Scopes. -/

def addScopeInfo (program : Program) (info : ScopeInfo) : Scope × Program :=
  (⟨program.scopes.size⟩, { program with scopes := program.scopes.push info })

def addFile (program : Program) (name : String) (isModule : Bool) : Scope × Program :=
  program.addScopeInfo
    { name := name, kind := if isModule then .moduleFile else .scriptFile, parent := none,
      symbol := none }

def addScope (program : Program) (parent : Scope) (kind : ScopeKind) (name : String) :
    Scope × Program :=
  program.addScopeInfo { name := name, kind := kind, parent := some parent, symbol := none }

/-- Scopes that do not exist cannot be moved. -/
def setScopeParent (program : Program) (scope : Scope) (parent : Option Scope) : Program :=
  { program with
    scopes := program.scopes.modify scope.index fun info => { info with parent := parent } }

/-! Symbols. -/

def declaration? (program : Program) (symbol : Symbol) : Option Declaration :=
  program.declarations[symbol.index]?

def addDeclaration (program : Program) (declaration : Declaration) : Symbol × Program :=
  (⟨program.declarations.size⟩,
    { program with declarations := program.declarations.push declaration })

def declare (program : Program) (scope : Scope) (name : String) (modifiers : Modifiers) :
    Symbol × Program :=
  program.addDeclaration { name := name, scope := some scope, modifiers := modifiers }

/-- A namespace is a symbol of its parent and a scope of its own. -/
def addNamespace (program : Program) (parent : Scope) (name : String) (modifiers : Modifiers) :
    (Scope × Symbol) × Program :=
  let (symbol, program) := program.declare parent name modifiers
  let (scope, program) := program.addScopeInfo
    { name := name, kind := .nameSpace, parent := some parent, symbol := some symbol }
  ((scope, symbol), program)

/-- An alias has the type its target has at the time. -/
def addAlias (program : Program) (scope : Scope) (name : String) (target : Symbol) :
    Symbol × Program :=
  program.addDeclaration
    { name := name, scope := some scope, modifiers := {}, aliasOf := some target,
      type := (program.declaration? target).bind Declaration.type }

def libraryFileName : Library → String
  | .standard => "lib.es.d.ts"
  | .extensions => "language-extensions.d.ts"

/-- The file that declares a library, made when it is first needed. -/
def libraryFile (program : Program) (library : Library) : Scope × Program :=
  match program.libraryFiles.find? library with
  | some scope => (scope, program)
  | none =>
      let (scope, program) := program.addFile (libraryFileName library) false
      (scope, { program with libraryFiles := program.libraryFiles.insert library scope })

/-- The latest declaration of a name in a library is the one that counts. -/
def declareLibrary (program : Program) (library : Library) (name : String) : Symbol × Program :=
  let (scope, program) := program.libraryFile library
  let (symbol, program) := program.declare scope name { ambient := true }
  (symbol,
    { program with
      libraryDeclarations := program.libraryDeclarations.insert (library, name) symbol })

def setSymbolType (program : Program) (symbol : Symbol) (type : Ty) : Program :=
  { program with
    declarations := program.declarations.modify symbol.index fun declaration =>
      { declaration with type := some type } }

def symbolCount (program : Program) : Nat := program.declarations.size

/-! Types. -/

def unknownType : Ty := ⟨0⟩

def addType (program : Program) (info : TypeInfo) : Ty × Program :=
  (⟨program.types.size⟩, { program with types := program.types.push info })

/-! Nodes. -/

def addUnbound (program : Program) (text : String) : Identifier × Program :=
  let span := Span.ofLength program.textEnd text.utf8ByteSize
  ({ node := ⟨program.nodeCount⟩, text := text, span := span },
    { program with nodeCount := program.nodeCount + 1, textEnd := span.stop + 1 })

def setNodeType (program : Program) (node : Node) (type : Ty) : Program :=
  { program with nodeTypes := program.nodeTypes.insert node type }

/-- A node bound to a symbol has the type its symbol has at the time, if there is one. -/
def addReference (program : Program) (symbol : Symbol) (text : String) : Identifier × Program :=
  let (identifier, program) := program.addUnbound text
  let program :=
    { program with nodeSymbols := program.nodeSymbols.insert identifier.node symbol }
  match (program.declaration? symbol).bind Declaration.type with
  | some type => (identifier, program.setNodeType identifier.node type)
  | none => (identifier, program)

/-! Answers. -/

def aliasTarget? (program : Program) (symbol : Symbol) : Option Symbol :=
  (program.declaration? symbol).bind Declaration.aliasOf

/-- Follows aliases for at most `steps` steps. -/
def followAliases (program : Program) : Nat → Symbol → Symbol
  | 0, symbol => symbol
  | steps + 1, symbol =>
      match program.aliasTarget? symbol with
      | some target => program.followAliases steps target
      | none => symbol

/-- No chain that ends is longer than the program has symbols. -/
def aliased (program : Program) (symbol : Symbol) : Symbol :=
  program.followAliases program.symbolCount symbol

def scopeInfo (program : Program) (scope : Scope) : ScopeInfo :=
  program.scopes[scope.index]?.getD { name := "", kind := .block, parent := none, symbol := none }

def typeInfo (program : Program) (type : Ty) : TypeInfo := program.types[type.index]?.getD {}

def checker (program : Program) : Checker where
  symbolAt node := program.nodeSymbols.find? node
  typeAt node := (program.nodeTypes.find? node).getD unknownType
  aliased := program.aliased
  symbolName symbol := ((program.declaration? symbol).map Declaration.name).getD ""
  isExported symbol :=
    ((program.declaration? symbol).map fun declaration => declaration.modifiers.exported).getD false
  isAmbient symbol :=
    ((program.declaration? symbol).map fun declaration => declaration.modifiers.ambient).getD false
  declaringScope symbol := (program.declaration? symbol).bind Declaration.scope
  scopeInfo := program.scopeInfo
  typeSymbol type := (program.typeInfo type).symbol
  isStandardType type := (program.typeInfo type).standard
  hasTag type tag := (program.typeInfo type).tags.contains tag
  libraryDeclaration library name := program.libraryDeclarations.find? (library, name)

end Program

end LuaLowering
