import LuaLowering.Program.Script

namespace LuaLowering.Program

/-! How programs grow.  A step may give a symbol another type and a scope another parent; all else
that a program declares stays as it is, and a library takes over no symbol that is already
declared. -/

structure Extends (older newer : Program) : Prop where
  size_le : older.declarations.size ≤ newer.declarations.size
  declaration {symbol : Symbol} {declaration : Declaration} :
    older.declaration? symbol = some declaration →
      ∃ type, newer.declaration? symbol = some { declaration with type := type }
  scope {index : Nat} {info : ScopeInfo} :
    older.scopes[index]? = some info →
      ∃ parent, newer.scopes[index]? = some { info with parent := parent }
  type {index : Nat} {info : TypeInfo} :
    older.types[index]? = some info → newer.types[index]? = some info
  library {key : Library × String} {symbol : Symbol} :
    newer.libraryDeclarations.find? key = some symbol →
      older.libraryDeclarations.find? key = some symbol ∨
        (older.declarations.size ≤ symbol.index ∧ symbol.index < newer.declarations.size)

namespace Extends

variable {older newer newest : Program}

/-- What a program knows of its nodes and of the files of libraries is left out of account. -/
theorem of_eq (hdeclarations : newer.declarations = older.declarations)
    (hscopes : newer.scopes = older.scopes) (htypes : newer.types = older.types)
    (hlibraries : newer.libraryDeclarations = older.libraryDeclarations) :
    Extends older newer where
  size_le := Nat.le_of_eq (congrArg Array.size hdeclarations.symm)
  declaration {_ declaration} hold :=
    ⟨declaration.type, by rw [declaration?, hdeclarations]; exact hold⟩
  scope {_ info} hold := ⟨info.parent, by rw [hscopes]; exact hold⟩
  type hold := by rw [htypes]; exact hold
  library hnew := Or.inl (by rw [← hlibraries]; exact hnew)

theorem refl (program : Program) : Extends program program := of_eq rfl rfl rfl rfl

theorem trans (hfirst : Extends older newer) (hsecond : Extends newer newest) :
    Extends older newest where
  size_le := Nat.le_trans hfirst.size_le hsecond.size_le
  declaration hold := by
    obtain ⟨_, hnewer⟩ := hfirst.declaration hold
    obtain ⟨type, hnewest⟩ := hsecond.declaration hnewer
    exact ⟨type, hnewest⟩
  scope hold := by
    obtain ⟨_, hnewer⟩ := hfirst.scope hold
    obtain ⟨parent, hnewest⟩ := hsecond.scope hnewer
    exact ⟨parent, hnewest⟩
  type hold := hsecond.type (hfirst.type hold)
  library hnewest := by
    rcases hsecond.library hnewest with hnewer | ⟨hlow, hhigh⟩
    · rcases hfirst.library hnewer with hold | ⟨hlow, hhigh⟩
      · exact Or.inl hold
      · exact Or.inr ⟨hlow, Nat.lt_of_lt_of_le hhigh hsecond.size_le⟩
    · exact Or.inr ⟨Nat.le_trans hfirst.size_le hlow, hhigh⟩

end Extends

/-! Single changes. -/

theorem getElem?_push_of_lt {β : Type} {entries : Array β} {index : Nat}
    (hindex : index < entries.size) (new : β) : (entries.push new)[index]? = entries[index]? := by
  rw [Array.getElem?_push_lt hindex, Array.getElem?_eq_getElem hindex]

theorem getElem?_push_of_eq_some {β : Type} {entries : Array β} {index : Nat} {entry : β}
    (hold : entries[index]? = some entry) (new : β) : (entries.push new)[index]? = some entry := by
  have hindex := (Array.getElem?_eq_some_iff.mp hold).1
  rw [getElem?_push_of_lt hindex, hold]

theorem extends_addScopeInfo (program : Program) (info : ScopeInfo) :
    Extends program (program.addScopeInfo info).2 where
  size_le := Nat.le_refl _
  declaration {_ declaration} hold := ⟨declaration.type, hold⟩
  scope {_ old} hold := ⟨old.parent, getElem?_push_of_eq_some hold info⟩
  type hold := hold
  library hnew := Or.inl hnew

theorem extends_addDeclaration (program : Program) (new : Declaration) :
    Extends program (program.addDeclaration new).2 where
  size_le := by simp [addDeclaration]
  declaration {_ declaration} hold := ⟨declaration.type, getElem?_push_of_eq_some hold new⟩
  scope {_ info} hold := ⟨info.parent, hold⟩
  type hold := hold
  library hnew := Or.inl hnew

theorem extends_addType (program : Program) (new : TypeInfo) :
    Extends program (program.addType new).2 where
  size_le := Nat.le_refl _
  declaration {_ declaration} hold := ⟨declaration.type, hold⟩
  scope {_ info} hold := ⟨info.parent, hold⟩
  type hold := getElem?_push_of_eq_some hold new
  library hnew := Or.inl hnew

theorem extends_setScopeParent (program : Program) (scope : Scope) (parent : Option Scope) :
    Extends program (program.setScopeParent scope parent) where
  size_le := Nat.le_refl _
  declaration {_ declaration} hold := ⟨declaration.type, hold⟩
  scope {index info} hold := by
    simp only [setScopeParent, Array.getElem?_modify, hold, Option.map_some]
    by_cases hscope : scope.index = index
    · exact ⟨parent, by rw [if_pos hscope]⟩
    · exact ⟨info.parent, by rw [if_neg hscope]⟩
  type hold := hold
  library hnew := Or.inl hnew

theorem declaration?_setSymbolType (program : Program) (symbol other : Symbol) (type : Ty) :
    (program.setSymbolType symbol type).declaration? other =
      (program.declaration? other).map fun declaration =>
        { declaration with
          type := if symbol.index = other.index then some type else declaration.type } := by
  simp only [declaration?, setSymbolType, Array.getElem?_modify]
  by_cases hsymbol : symbol.index = other.index
  · simp only [if_pos hsymbol]
  · simp only [if_neg hsymbol, Option.map_id']

theorem extends_setSymbolType (program : Program) (symbol : Symbol) (type : Ty) :
    Extends program (program.setSymbolType symbol type) where
  size_le := by simp [setSymbolType]
  declaration {other declaration} hold := by
    rw [declaration?_setSymbolType, hold]
    exact ⟨_, rfl⟩
  scope {_ info} hold := ⟨info.parent, hold⟩
  type hold := hold
  library hnew := Or.inl hnew

theorem extends_addNamespace (program : Program) (parent : Scope) (name : String)
    (modifiers : Modifiers) : Extends program (program.addNamespace parent name modifiers).2 :=
  (extends_addDeclaration program _).trans (extends_addScopeInfo _ _)

theorem extends_libraryFile (program : Program) (library : Library) :
    Extends program (program.libraryFile library).2 := by
  unfold libraryFile
  cases program.libraryFiles.find? library with
  | some scope => exact Extends.refl program
  | none => exact (extends_addScopeInfo program _).trans (.of_eq rfl rfl rfl rfl)

theorem extends_addLibraryDeclaration (program : Program) (new : Declaration)
    (key : Library × String) :
    Extends program
      { (program.addDeclaration new).2 with
        libraryDeclarations :=
          program.libraryDeclarations.insert key (program.addDeclaration new).1 } where
  size_le := (extends_addDeclaration program new).size_le
  declaration hold := (extends_addDeclaration program new).declaration hold
  scope hold := (extends_addDeclaration program new).scope hold
  type hold := hold
  library {other symbol} hnew := by
    rw [Entries.find?_insert] at hnew
    split at hnew
    · -- The symbol is the one that the new declaration has just got.
      obtain rfl := Option.some.inj hnew
      exact Or.inr ⟨Nat.le_refl _, by simp [addDeclaration]⟩
    · exact Or.inl hnew

theorem extends_declareLibrary (program : Program) (library : Library) (name : String) :
    Extends program (program.declareLibrary library name).2 :=
  (extends_libraryFile program library).trans (extends_addLibraryDeclaration _ _ (library, name))

/-- A reference is a node like any other, for which a symbol and perhaps a type is noted. -/
theorem addReference_eq (program : Program) (symbol : Symbol) (text : String) :
    program.addReference symbol text =
      ((program.addUnbound text).1,
        { (program.addUnbound text).2 with
          nodeSymbols := program.nodeSymbols.insert ⟨program.nodeCount⟩ symbol
          nodeTypes :=
            match (program.declaration? symbol).bind Declaration.type with
            | some type => program.nodeTypes.insert ⟨program.nodeCount⟩ type
            | none => program.nodeTypes }) := by
  simp only [addReference, addUnbound, setNodeType, declaration?]
  cases program.declarations[symbol.index]?.bind Declaration.type with
  | some type => rfl
  | none => rfl

/-! Steps and runs. -/

theorem extends_perform (program : Program) (step : BuildStep) :
    Extends program (program.perform step).2 := by
  cases step with
  | file name isModule => exact extends_addScopeInfo program _
  | nameSpace parent name modifiers => exact extends_addNamespace program parent name modifiers
  | scope parent kind name => exact extends_addScopeInfo program _
  | setScopeParent scope parent => exact extends_setScopeParent program scope parent
  | declare scope name modifiers => exact extends_addDeclaration program _
  | declareAlias scope name target => exact extends_addDeclaration program _
  | library library name => exact extends_declareLibrary program library name
  | type info => exact extends_addType program info
  | setSymbolType symbol type => exact extends_setSymbolType program symbol type
  | reference symbol text =>
      rw [perform, addReference_eq]
      exact .of_eq rfl rfl rfl rfl
  | unbound text => exact .of_eq rfl rfl rfl rfl
  | setNodeType node type => exact .of_eq rfl rfl rfl rfl

theorem extends_performAll (program : Program) (steps : List BuildStep) :
    Extends program (program.performAll steps) := by
  induction steps generalizing program with
  | nil => exact Extends.refl program
  | cons step steps ih => exact (extends_perform program step).trans (ih _)

theorem performAll_append (program : Program) (first second : List BuildStep) :
    program.performAll (first ++ second) = (program.performAll first).performAll second :=
  List.foldl_append

/-! What holds of every program that steps build. -/

theorem library_symbol_lt {steps : List BuildStep} {key : Library × String} {symbol : Symbol}
    (hlibrary : (build steps).libraryDeclarations.find? key = some symbol) :
    symbol.index < (build steps).declarations.size := by
  rcases (extends_performAll empty steps).library hlibrary with hold | ⟨_, hlt⟩
  · contradiction
  · exact hlt

theorem typeInfo_unknownType (steps : List BuildStep) :
    (build steps).typeInfo unknownType = {} := by
  have htype : (build steps).types[0]? = some ({} : TypeInfo) :=
    (extends_performAll empty steps).type rfl
  simp only [typeInfo, unknownType, htype, Option.getD_some]

theorem aliased_of_aliasTarget? {program : Program} {symbol : Symbol}
    (htarget : program.aliasTarget? symbol = none) : program.aliased symbol = symbol := by
  unfold aliased
  cases program.symbolCount with
  | zero => rfl
  | succ steps => simp only [followAliases, htarget]

/-! Namespaces. -/

theorem declarations_addNamespace (program : Program) (parent : Scope) (name : String)
    (modifiers : Modifiers) :
    (program.addNamespace parent name modifiers).2.declarations =
      program.declarations.push { name := name, scope := some parent, modifiers := modifiers } :=
  rfl

theorem scopes_addNamespace (program : Program) (parent : Scope) (name : String)
    (modifiers : Modifiers) :
    (program.addNamespace parent name modifiers).2.scopes =
      program.scopes.push
        { name := name, kind := .nameSpace, parent := some parent,
          symbol := some ⟨program.declarations.size⟩ } :=
  rfl

/-- The scope and the symbol that one of the steps gave out when it added the namespace. -/
def HasNamespace (program : Program) (name : String) (modifiers : Modifiers) (scope : Scope)
    (symbol : Symbol) : Prop :=
  ∃ before parent after,
    program = build (before ++ .nameSpace parent name modifiers :: after) ∧
      ((build before).perform (.nameSpace parent name modifiers)).1 = .nameSpace scope symbol

namespace HasNamespace

variable {program : Program} {name : String} {modifiers : Modifiers} {scope : Scope}
  {symbol : Symbol}

theorem typeInfo_unknownType_eq (hnamespace : program.HasNamespace name modifiers scope symbol) :
    program.typeInfo unknownType = {} := by
  obtain ⟨before, parent, after, rfl, _⟩ := hnamespace
  exact typeInfo_unknownType _

/-- All that later steps have to keep is there right after the namespace was added. -/
theorem extends_of_hasNamespace (hnamespace : program.HasNamespace name modifiers scope symbol) :
    ∃ before parent,
      scope = ⟨(build before).scopes.size⟩ ∧ symbol = ⟨(build before).declarations.size⟩ ∧
        Extends ((build before).addNamespace parent name modifiers).2 program := by
  obtain ⟨before, parent, after, rfl, hmade⟩ := hnamespace
  obtain ⟨rfl, rfl⟩ := Built.nameSpace.inj hmade
  refine ⟨before, parent, rfl, rfl, ?_⟩
  have hbuild : build (before ++ .nameSpace parent name modifiers :: after) =
      ((build before).addNamespace parent name modifiers).2.performAll after :=
    performAll_append empty before _
  rw [hbuild]
  exact extends_performAll _ after

theorem scopeInfo_eq (hnamespace : program.HasNamespace name modifiers scope symbol) :
    ∃ parent, program.scopeInfo scope =
      { name := name, kind := .nameSpace, parent := parent, symbol := some symbol } := by
  obtain ⟨before, parent, rfl, rfl, hextends⟩ := hnamespace.extends_of_hasNamespace
  obtain ⟨outer, hscope⟩ := hextends.scope Array.getElem?_push_size
  exact ⟨outer, by simp only [scopeInfo, hscope, Option.getD_some]⟩

theorem declaration?_eq (hnamespace : program.HasNamespace name modifiers scope symbol) :
    ∃ parent type, program.declaration? symbol =
      some { name := name, scope := some parent, modifiers := modifiers, type := type } := by
  obtain ⟨before, parent, rfl, rfl, hextends⟩ := hnamespace.extends_of_hasNamespace
  obtain ⟨type, hdeclaration⟩ := hextends.declaration Array.getElem?_push_size
  exact ⟨parent, type, hdeclaration⟩

/-- No library ever declares the symbol of a namespace. -/
theorem find?_libraryDeclarations_ne
    (hnamespace : program.HasNamespace name modifiers scope symbol) (key : Library × String) :
    program.libraryDeclarations.find? key ≠ some symbol := by
  obtain ⟨before, parent, rfl, rfl, hextends⟩ := hnamespace.extends_of_hasNamespace
  intro hlibrary
  rcases hextends.library hlibrary with hold | ⟨hlow, _⟩
  · exact Nat.lt_irrefl _ (library_symbol_lt hold)
  · have hsize : ((build before).addNamespace parent name modifiers).2.declarations.size =
        (build before).declarations.size + 1 := Array.size_push _
    rw [hsize] at hlow
    exact Nat.not_succ_le_self _ hlow

end HasNamespace

end LuaLowering.Program
