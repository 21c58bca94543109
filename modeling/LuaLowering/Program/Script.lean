import LuaLowering.Program.Model

namespace LuaLowering

/-! Building steps as data: a program is what a list of steps builds. -/

inductive BuildStep where
  | file (name : String) (isModule : Bool)
  | nameSpace (parent : Scope) (name : String) (modifiers : Modifiers)
  | scope (parent : Scope) (kind : ScopeKind) (name : String)
  | setScopeParent (scope : Scope) (parent : Option Scope)
  | declare (scope : Scope) (name : String) (modifiers : Modifiers)
  | declareAlias (scope : Scope) (name : String) (target : Symbol)
  | library (library : Library) (name : String)
  | type (info : TypeInfo)
  | setSymbolType (symbol : Symbol) (type : Ty)
  | reference (symbol : Symbol) (text : String)
  | unbound (text : String)
  | setNodeType (node : Node) (type : Ty)
deriving Repr

/-- What a step gives out. -/
inductive Built where
  | nothing
  | scope (scope : Scope)
  | nameSpace (scope : Scope) (symbol : Symbol)
  | symbol (symbol : Symbol)
  | type (type : Ty)
  | identifier (identifier : Identifier)
deriving DecidableEq, Repr

namespace Program

def perform (program : Program) : BuildStep → Built × Program
  | .file name isModule =>
      let (scope, program) := program.addFile name isModule
      (.scope scope, program)
  | .nameSpace parent name modifiers =>
      let ((scope, symbol), program) := program.addNamespace parent name modifiers
      (.nameSpace scope symbol, program)
  | .scope parent kind name =>
      let (scope, program) := program.addScope parent kind name
      (.scope scope, program)
  | .setScopeParent scope parent => (.nothing, program.setScopeParent scope parent)
  | .declare scope name modifiers =>
      let (symbol, program) := program.declare scope name modifiers
      (.symbol symbol, program)
  | .declareAlias scope name target =>
      let (symbol, program) := program.addAlias scope name target
      (.symbol symbol, program)
  | .library library name =>
      let (symbol, program) := program.declareLibrary library name
      (.symbol symbol, program)
  | .type info =>
      let (type, program) := program.addType info
      (.type type, program)
  | .setSymbolType symbol type => (.nothing, program.setSymbolType symbol type)
  | .reference symbol text =>
      let (identifier, program) := program.addReference symbol text
      (.identifier identifier, program)
  | .unbound text =>
      let (identifier, program) := program.addUnbound text
      (.identifier identifier, program)
  | .setNodeType node type => (.nothing, program.setNodeType node type)

def performAll (program : Program) (steps : List BuildStep) : Program :=
  steps.foldl (fun program step => (program.perform step).2) program

def build (steps : List BuildStep) : Program := empty.performAll steps

end Program

end LuaLowering
