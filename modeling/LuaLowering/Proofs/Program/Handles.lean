import LuaLowering.Proofs.Program.Libraries

namespace LuaLowering

/-! Handles of all kinds, and the questions that are about one of them. -/

inductive Handle where
  | symbol (symbol : Symbol)
  | scope (scope : Scope)
  | type (type : Ty)
  | node (node : Node)
deriving DecidableEq, Repr

/-- What aliases stand for and what libraries declare is asked about more than one handle. -/
inductive Question where
  | symbolAt (node : Node)
  | typeAt (node : Node)
  | symbolName (symbol : Symbol)
  | isExported (symbol : Symbol)
  | isAmbient (symbol : Symbol)
  | declaringScope (symbol : Symbol)
  | scopeInfo (scope : Scope)
  | typeSymbol (type : Ty)
  | isStandardType (type : Ty)
  | hasTag (type : Ty) (tag : TypeTag)
deriving DecidableEq, Repr

namespace Question

def handle : Question → Handle
  | symbolAt node => .node node
  | typeAt node => .node node
  | symbolName symbol => .symbol symbol
  | isExported symbol => .symbol symbol
  | isAmbient symbol => .symbol symbol
  | declaringScope symbol => .symbol symbol
  | scopeInfo scope => .scope scope
  | typeSymbol type => .type type
  | isStandardType type => .type type
  | hasTag type _ => .type type

@[reducible] def Answer : Question → Type
  | symbolAt _ => Option Symbol
  | typeAt _ => Ty
  | symbolName _ => String
  | isExported _ => Bool
  | isAmbient _ => Bool
  | declaringScope _ => Option Scope
  | scopeInfo _ => ScopeInfo
  | typeSymbol _ => Option Symbol
  | isStandardType _ => Bool
  | hasTag _ _ => Bool

end Question

def Checker.answer (checker : Checker) : (question : Question) → question.Answer
  | .symbolAt node => checker.symbolAt node
  | .typeAt node => checker.typeAt node
  | .symbolName symbol => checker.symbolName symbol
  | .isExported symbol => checker.isExported symbol
  | .isAmbient symbol => checker.isAmbient symbol
  | .declaringScope symbol => checker.declaringScope symbol
  | .scopeInfo scope => checker.scopeInfo scope
  | .typeSymbol type => checker.typeSymbol type
  | .isStandardType type => checker.isStandardType type
  | .hasTag type tag => checker.hasTag type tag

namespace BuildStep

/-- Steps that change what is there already. -/
def isSetter : BuildStep → Bool
  | setScopeParent .. => true
  | setSymbolType .. => true
  | setNodeType .. => true
  | _ => false

/-- The one question to which a step may change the answer. -/
def touched? : BuildStep → Option Question
  | setScopeParent moved _ => some (.scopeInfo moved)
  | setNodeType node _ => some (.typeAt node)
  | _ => none

/-- The text of the node that a step makes. -/
def text? : BuildStep → Option String
  | reference _ text => some text
  | unbound text => some text
  | _ => none

theorem touched?_of_not_isSetter {step : BuildStep} (hsetter : step.isSetter = false) :
    step.touched? = none := by
  cases step with
  | setScopeParent | setSymbolType | setNodeType => cases hsetter
  | file | nameSpace | scope | declare | declareAlias | library | type | reference | unbound => rfl

end BuildStep

namespace Built

def handles : Built → List Handle
  | nothing => []
  | scope made => [.scope made]
  | nameSpace made named => [.scope made, .symbol named]
  | symbol made => [.symbol made]
  | type made => [.type made]
  | identifier made => [.node made.node]

theorem nodup_handles (built : Built) : built.handles.Nodup := by
  cases built <;> simp [handles]

def identifier? : Built → Option Identifier
  | identifier made => some made
  | _ => none

end Built

namespace Program

/-- Handles of each kind are counted from zero. -/
def Has (program : Program) : Handle → Prop
  | .symbol symbol => symbol.index < program.declarations.size
  | .scope scope => scope.index < program.scopes.size
  | .type type => type.index < program.types.size
  | .node node => node.index < program.nodeCount

instance (program : Program) : DecidablePred program.Has
  | .symbol _ => inferInstanceAs (Decidable (_ < _))
  | .scope _ => inferInstanceAs (Decidable (_ < _))
  | .type _ => inferInstanceAs (Decidable (_ < _))
  | .node _ => inferInstanceAs (Decidable (_ < _))

/-- The newer program has all handles of the older one, and answers all questions about them as the
older one does, but for the one that may be touched. -/
structure Retains (touched : Option Question) (older newer : Program) : Prop where
  has {handle : Handle} : older.Has handle → newer.Has handle
  answer {question : Question} :
    older.Has question.handle → touched ≠ some question →
      newer.checker.answer question = older.checker.answer question

namespace Retains

variable {touched : Option Question} {older newer newest : Program}

theorem refl (touched : Option Question) (program : Program) : Retains touched program program where
  has hhas := hhas
  answer _ _ := rfl

theorem trans (hfirst : Retains touched older newer) (hsecond : Retains touched newer newest) :
    Retains touched older newest where
  has hhas := hsecond.has (hfirst.has hhas)
  answer hhas huntouched :=
    (hsecond.answer (hfirst.has hhas) huntouched).trans (hfirst.answer hhas huntouched)

end Retains

/-! Additions. -/

theorem lt_size_push {β : Type} {entries : Array β} {index : Nat} (hindex : index ≤ entries.size)
    (new : β) : index < (entries.push new).size := by
  rw [Array.size_push]
  exact Nat.lt_succ_of_le hindex

section Additions

variable (program : Program)

theorem retains_addScopeInfo (info : ScopeInfo) :
    Retains none program (program.addScopeInfo info).2 where
  has {handle} hhas := by
    cases handle with
    | scope scope => exact lt_size_push (Nat.le_of_lt hhas) info
    | symbol | type | node => exact hhas
  answer {question} hhas _ := by
    cases question with
    | scopeInfo scope =>
        exact congrArg (Option.getD · _) (getElem?_push_of_lt hhas info)
    | symbolAt | typeAt | symbolName | isExported | isAmbient | declaringScope | typeSymbol
    | isStandardType | hasTag => rfl

theorem retains_addDeclaration (declaration : Declaration) :
    Retains none program (program.addDeclaration declaration).2 where
  has {handle} hhas := by
    cases handle with
    | symbol symbol => exact lt_size_push (Nat.le_of_lt hhas) declaration
    | scope | type | node => exact hhas
  answer {question} hhas _ := by
    have hdeclaration {symbol : Symbol} (hsymbol : program.Has (.symbol symbol)) :
        (program.addDeclaration declaration).2.declaration? symbol =
          program.declaration? symbol :=
      getElem?_push_of_lt hsymbol declaration
    cases question with
    | symbolName symbol | isExported symbol | isAmbient symbol | declaringScope symbol =>
        simp only [Checker.answer, checker, hdeclaration hhas]
    | symbolAt | typeAt | scopeInfo | typeSymbol | isStandardType | hasTag => rfl

theorem retains_addType (info : TypeInfo) : Retains none program (program.addType info).2 where
  has {handle} hhas := by
    cases handle with
    | type type => exact lt_size_push (Nat.le_of_lt hhas) info
    | symbol | scope | node => exact hhas
  answer {question} hhas _ := by
    have hinfo {type : Ty} (htype : program.Has (.type type)) :
        (program.addType info).2.typeInfo type = program.typeInfo type :=
      congrArg (fun found => found.getD {}) (getElem?_push_of_lt htype info)
    cases question with
    | typeSymbol type | isStandardType type | hasTag type tag =>
        simp only [Checker.answer, checker, hinfo hhas]
    | symbolAt | typeAt | symbolName | isExported | isAmbient | declaringScope | scopeInfo => rfl

theorem retains_addUnbound (text : String) :
    Retains none program (program.addUnbound text).2 where
  has {handle} hhas := by
    cases handle with
    | node node => exact Nat.lt_succ_of_lt hhas
    | symbol | scope | type => exact hhas
  answer {question} _ _ := by
    cases question <;> rfl

theorem retains_addReference (symbol : Symbol) (text : String) :
    Retains none program (program.addReference symbol text).2 where
  has {handle} hhas := by
    rw [addReference_eq]
    exact (program.retains_addUnbound text).has hhas
  answer {question} hhas _ := by
    rw [addReference_eq]
    have hne {node : Node} (hnode : program.Has (.node node)) : node ≠ ⟨program.nodeCount⟩ := by
      rintro rfl
      exact Nat.lt_irrefl _ hnode
    cases question with
    | symbolAt node => exact Entries.find?_insert_of_ne _ _ (hne hhas)
    | typeAt node =>
        cases htype : (program.declaration? symbol).bind Declaration.type with
        | none => rfl
        | some type =>
            exact congrArg (Option.getD · unknownType) (Entries.find?_insert_of_ne _ _ (hne hhas))
    | symbolName | isExported | isAmbient | declaringScope | scopeInfo | typeSymbol
    | isStandardType | hasTag => rfl

/-- What a program knows of its libraries is left out of account. -/
theorem retains_libraries (files : Entries Library Scope)
    (declarations : Entries (Library × String) Symbol) :
    Retains none program
      { program with libraryFiles := files, libraryDeclarations := declarations } where
  has {handle} hhas := by
    cases handle <;> exact hhas
  answer {question} _ _ := by
    cases question <;> rfl

theorem retains_libraryFile (library : Library) :
    Retains none program (program.libraryFile library).2 := by
  unfold libraryFile
  cases program.libraryFiles.find? library with
  | some scope => exact Retains.refl none program
  | none => exact (retains_addScopeInfo program _).trans (retains_libraries _ _ _)

theorem retains_declareLibrary (library : Library) (name : String) :
    Retains none program (program.declareLibrary library name).2 :=
  ((retains_libraryFile program library).trans (retains_addDeclaration _ _)).trans
    (retains_libraries _ _ _)

theorem retains_addNamespace (parent : Scope) (name : String) (modifiers : Modifiers) :
    Retains none program (program.addNamespace parent name modifiers).2 :=
  (retains_addDeclaration program _).trans (retains_addScopeInfo _ _)

end Additions

/-! Changes.  What they leave alone, they leave alone for handles of other programs, too. -/

section Changes

variable (program : Program) {question : Question}

theorem answer_setScopeParent {scope : Scope} (parent : Option Scope)
    (hquestion : question ≠ .scopeInfo scope) :
    (program.setScopeParent scope parent).checker.answer question =
      program.checker.answer question := by
  cases question with
  | scopeInfo other =>
      have hindex : scope.index ≠ other.index := by
        intro hindex
        cases scope
        cases other
        exact hquestion (congrArg (fun index => Question.scopeInfo ⟨index⟩) hindex.symm)
      simp only [Checker.answer, checker, scopeInfo, setScopeParent, Array.getElem?_modify,
        if_neg hindex]
  | symbolAt | typeAt | symbolName | isExported | isAmbient | declaringScope | typeSymbol
  | isStandardType | hasTag => rfl

theorem scopeInfo_setScopeParent {scope : Scope} (hscope : program.Has (.scope scope))
    (parent : Option Scope) :
    (program.setScopeParent scope parent).checker.scopeInfo scope =
      { program.checker.scopeInfo scope with parent := parent } := by
  simp only [checker, scopeInfo, setScopeParent, Array.getElem?_modify, if_true,
    Array.getElem?_eq_getElem hscope, Option.map_some, Option.getD_some]

theorem answer_setSymbolType (symbol : Symbol) (type : Ty) (question : Question) :
    (program.setSymbolType symbol type).checker.answer question =
      program.checker.answer question := by
  cases question with
  | symbolName other | isExported other | isAmbient other | declaringScope other =>
      simp only [Checker.answer, checker, declaration?_setSymbolType, Option.map_map,
        Option.bind_map]
      rfl
  | symbolAt | typeAt | scopeInfo | typeSymbol | isStandardType | hasTag => rfl

/-- The type of a symbol is the one that references get from then on. -/
theorem typeAt_addReference_setSymbolType {symbol : Symbol} (hsymbol : program.Has (.symbol symbol))
    (type : Ty) (text : String) :
    ((program.setSymbolType symbol type).addReference symbol text).2.checker.typeAt
      ((program.setSymbolType symbol type).addReference symbol text).1.node = type := by
  have htype : ((program.setSymbolType symbol type).declaration? symbol).bind Declaration.type =
      some type := by
    have hdeclaration : program.declaration? symbol = some program.declarations[symbol.index] :=
      Array.getElem?_eq_getElem hsymbol
    simp only [declaration?_setSymbolType, hdeclaration, Option.map_some, Option.bind_some, if_true]
  simp only [addReference_eq, htype, checker]
  exact congrArg (Option.getD · unknownType) (Entries.find?_insert_self _ _ _)

theorem answer_setNodeType {node : Node} (type : Ty) (hquestion : question ≠ .typeAt node) :
    (program.setNodeType node type).checker.answer question = program.checker.answer question := by
  cases question with
  | typeAt other =>
      have hne : other ≠ node := fun hnode => hquestion (congrArg Question.typeAt hnode)
      exact congrArg (Option.getD · unknownType) (Entries.find?_insert_of_ne _ _ hne)
  | symbolAt | symbolName | isExported | isAmbient | declaringScope | scopeInfo | typeSymbol
  | isStandardType | hasTag => rfl

theorem typeAt_setNodeType (node : Node) (type : Ty) :
    (program.setNodeType node type).checker.typeAt node = type := by
  simp only [checker, setNodeType, Entries.find?_insert_self, Option.getD_some]

end Changes

/-! Steps and runs. -/

theorem retains_perform (program : Program) (step : BuildStep) :
    Retains step.touched? program (program.perform step).2 := by
  cases step with
  | file name isModule => exact retains_addScopeInfo program _
  | nameSpace parent name modifiers => exact retains_addNamespace program parent name modifiers
  | scope parent kind name => exact retains_addScopeInfo program _
  | declare scope name modifiers => exact retains_addDeclaration program _
  | declareAlias scope name target => exact retains_addDeclaration program _
  | library library name => exact retains_declareLibrary program library name
  | type info => exact retains_addType program info
  | reference symbol text => exact retains_addReference program symbol text
  | unbound text => exact retains_addUnbound program text
  | setScopeParent scope parent =>
      refine ⟨?_, ?_⟩
      · intro handle hhas
        cases handle with
        | scope other => exact Nat.lt_of_lt_of_eq hhas (Array.size_modify ..).symm
        | symbol | type | node => exact hhas
      · intro question _ huntouched
        apply program.answer_setScopeParent parent
        exact fun hsame => huntouched (congrArg some hsame.symm)
  | setSymbolType symbol type =>
      refine ⟨?_, ?_⟩
      · intro handle hhas
        cases handle with
        | symbol other => exact Nat.lt_of_lt_of_eq hhas (Array.size_modify ..).symm
        | scope | type | node => exact hhas
      · intro question _ _
        exact program.answer_setSymbolType symbol type question
  | setNodeType node type =>
      refine ⟨?_, ?_⟩
      · intro handle hhas
        cases handle <;> exact hhas
      · intro question _ huntouched
        apply program.answer_setNodeType type
        exact fun hsame => huntouched (congrArg some hsame.symm)

theorem has_performAll {program : Program} {handle : Handle} (hhas : program.Has handle)
    (steps : List BuildStep) : (program.performAll steps).Has handle := by
  induction steps generalizing program with
  | nil => exact hhas
  | cons step steps ih => exact ih ((program.retains_perform step).has hhas)

theorem answer_performAll {program : Program} {question : Question}
    (hhas : program.Has question.handle) {steps : List BuildStep}
    (huntouched : ∀ step ∈ steps, step.touched? ≠ some question) :
    (program.performAll steps).checker.answer question = program.checker.answer question := by
  induction steps generalizing program with
  | nil => rfl
  | cons step steps ih =>
      obtain ⟨hstep, hsteps⟩ := List.forall_mem_cons.mp huntouched
      have hretains := program.retains_perform step
      exact (ih (hretains.has hhas) hsteps).trans (hretains.answer hhas hstep)

/-! What steps give out. -/

/-- What each of the steps gives out, if the program is where they start. -/
def givenOut (program : Program) : List BuildStep → List Built
  | [] => []
  | step :: steps => (program.perform step).1 :: (program.perform step).2.givenOut steps

def handles (program : Program) (steps : List BuildStep) : List Handle :=
  (program.givenOut steps).flatMap Built.handles

def identifiers (program : Program) (steps : List BuildStep) : List Identifier :=
  (program.givenOut steps).filterMap Built.identifier?

theorem fresh_of_symbol? {program : Program} {step : BuildStep} {symbol : Symbol}
    (hmade : (program.perform step).1.symbol? = some symbol) :
    ¬ program.Has (.symbol symbol) ∧ (program.perform step).2.Has (.symbol symbol) := by
  obtain ⟨rfl, hsize⟩ := perform_symbol? hmade
  exact ⟨Nat.lt_irrefl _, Nat.lt_of_lt_of_eq (Nat.lt_succ_self _) hsize.symm⟩

/-- A handle that is given out is one that was not there before. -/
theorem fresh_of_mem_handles {program : Program} {step : BuildStep} {handle : Handle}
    (hmem : handle ∈ (program.perform step).1.handles) :
    ¬ program.Has handle ∧ (program.perform step).2.Has handle := by
  cases step with
  | file | scope | type =>
      obtain rfl := List.mem_singleton.mp hmem
      exact ⟨Nat.lt_irrefl _, lt_size_push (Nat.le_refl _) _⟩
  | declare | declareAlias | library =>
      obtain rfl := List.mem_singleton.mp hmem
      exact fresh_of_symbol? rfl
  | nameSpace parent name modifiers =>
      rcases List.mem_cons.mp hmem with rfl | hmem
      · exact ⟨Nat.lt_irrefl _, lt_size_push (Nat.le_refl _) _⟩
      · obtain rfl := List.mem_singleton.mp hmem
        exact fresh_of_symbol? rfl
  | reference symbol text =>
      rw [perform, addReference_eq] at hmem ⊢
      obtain rfl := List.mem_singleton.mp hmem
      exact ⟨Nat.lt_irrefl _, Nat.lt_succ_self _⟩
  | unbound text =>
      obtain rfl := List.mem_singleton.mp hmem
      exact ⟨Nat.lt_irrefl _, Nat.lt_succ_self _⟩
  | setScopeParent | setSymbolType | setNodeType => cases hmem

theorem fresh_handles (program : Program) (steps : List BuildStep) :
    (program.handles steps).Nodup ∧
      ∀ handle ∈ program.handles steps,
        ¬ program.Has handle ∧ (program.performAll steps).Has handle := by
  induction steps generalizing program with
  | nil => exact ⟨List.nodup_nil, fun _ hmem => absurd hmem List.not_mem_nil⟩
  | cons step steps ih =>
      obtain ⟨hnodup, hfresh⟩ := ih (program.perform step).2
      have hretains := program.retains_perform step
      have hcons : program.handles (step :: steps) =
          (program.perform step).1.handles ++ (program.perform step).2.handles steps := rfl
      rw [hcons]
      constructor
      · refine List.Nodup.append (Built.nodup_handles _) hnodup ?_
        -- What later steps give out is new to a program that has what this step gave out.
        intro handle hmem hlater
        exact (hfresh handle hlater).1 (fresh_of_mem_handles hmem).2
      · intro handle hmem
        rcases List.mem_append.mp hmem with hmem | hlater
        · obtain ⟨hnew, hhas⟩ := fresh_of_mem_handles hmem
          exact ⟨hnew, has_performAll hhas steps⟩
        · obtain ⟨hnew, hhas⟩ := hfresh handle hlater
          exact ⟨fun hold => hnew (hretains.has hold), hhas⟩

/-! How nodes are laid out. -/

theorem textEnd_libraryFile (program : Program) (library : Library) :
    (program.libraryFile library).2.textEnd = program.textEnd := by
  unfold libraryFile
  cases program.libraryFiles.find? library with
  | some scope => rfl
  | none => rfl

theorem perform_of_text?_eq_some {program : Program} {step : BuildStep} {text : String}
    (htext : step.text? = some text) :
    (program.perform step).1.identifier? = some (program.addUnbound text).1 ∧
      (program.perform step).2.textEnd = program.textEnd + text.utf8ByteSize + 1 := by
  cases step with
  | reference symbol text =>
      obtain rfl := Option.some.inj htext
      rw [perform, addReference_eq]
      exact ⟨rfl, rfl⟩
  | unbound text =>
      obtain rfl := Option.some.inj htext
      exact ⟨rfl, rfl⟩
  | file | nameSpace | scope | setScopeParent | declare | declareAlias | library | type
  | setSymbolType | setNodeType => cases htext

theorem perform_of_text?_eq_none {program : Program} {step : BuildStep}
    (htext : step.text? = none) :
    (program.perform step).1.identifier? = none ∧
      (program.perform step).2.textEnd = program.textEnd := by
  cases step with
  | library library name => exact ⟨rfl, textEnd_libraryFile program library⟩
  | reference | unbound => cases htext
  | file | nameSpace | scope | setScopeParent | declare | declareAlias | type | setSymbolType
  | setNodeType => exact ⟨rfl, rfl⟩

theorem identifiers_of_text?_eq_some {program : Program} {step : BuildStep} {text : String}
    (htext : step.text? = some text) (steps : List BuildStep) :
    program.identifiers (step :: steps) =
      (program.addUnbound text).1 :: (program.perform step).2.identifiers steps :=
  List.filterMap_cons_some (perform_of_text?_eq_some htext).1

theorem identifiers_of_text?_eq_none {program : Program} {step : BuildStep}
    (htext : step.text? = none) (steps : List BuildStep) :
    program.identifiers (step :: steps) = (program.perform step).2.identifiers steps :=
  List.filterMap_cons_none (perform_of_text?_eq_none htext).1

theorem texts_identifiers (program : Program) (steps : List BuildStep) :
    (program.identifiers steps).map Identifier.text = steps.filterMap BuildStep.text? := by
  induction steps generalizing program with
  | nil => rfl
  | cons step steps ih =>
      cases htext : step.text? with
      | none =>
          rw [identifiers_of_text?_eq_none htext, List.filterMap_cons_none htext]
          exact ih _
      | some text =>
          rw [identifiers_of_text?_eq_some htext, List.filterMap_cons_some htext, List.map_cons, ih]
          rfl

/-- Each node takes as many bytes as its text has, and a gap comes before the next one. -/
theorem laidOut_identifiers (program : Program) (steps : List BuildStep) :
    (∀ identifier ∈ program.identifiers steps,
      program.textEnd ≤ identifier.span.start ∧
        identifier.span.stop = identifier.span.start + identifier.text.utf8ByteSize) ∧
    (program.identifiers steps).Pairwise
      fun first second => first.span.stop < second.span.start := by
  -- The end of the text so far carries the induction: no later node starts before it.
  induction steps generalizing program with
  | nil => exact ⟨fun _ hmem => absurd hmem List.not_mem_nil, List.Pairwise.nil⟩
  | cons step steps ih =>
      obtain ⟨hspans, hordered⟩ := ih (program.perform step).2
      cases htext : step.text? with
      | none =>
          rw [identifiers_of_text?_eq_none htext]
          rw [(perform_of_text?_eq_none htext).2] at hspans
          exact ⟨hspans, hordered⟩
      | some text =>
          rw [identifiers_of_text?_eq_some htext]
          rw [(perform_of_text?_eq_some htext).2] at hspans
          have hstart : (program.addUnbound text).1.span.start = program.textEnd := rfl
          have hstop : (program.addUnbound text).1.span.stop =
              program.textEnd + text.utf8ByteSize := rfl
          constructor
          · rintro identifier (_ | ⟨_, hmem⟩)
            · exact ⟨Nat.le_refl _, rfl⟩
            · obtain ⟨hlow, hlength⟩ := hspans identifier hmem
              exact ⟨by omega, hlength⟩
          · refine List.pairwise_cons.mpr ⟨?_, hordered⟩
            intro identifier hmem
            have hlow := (hspans identifier hmem).1
            omega

/-- Handles stay valid.  No handle is given out twice; nodes stand apart, in the order in which they
were made; and whatever is asked about a handle that is there, later steps leave the answer alone,
but for a scope that gets another parent and for a node that gets another type. -/
theorem handles_stay_valid (steps : List BuildStep) :
    ((empty.handles steps).Nodup ∧ ∀ handle ∈ empty.handles steps, (build steps).Has handle) ∧
    ((empty.identifiers steps).map Identifier.text = steps.filterMap BuildStep.text? ∧
      (∀ identifier ∈ empty.identifiers steps,
        identifier.span.stop = identifier.span.start + identifier.text.utf8ByteSize) ∧
      (empty.identifiers steps).Pairwise
        fun first second => first.span.stop < second.span.start) ∧
    (∀ step question, step.isSetter = false → (build steps).Has question.handle →
      ((build steps).perform step).2.checker.answer question =
        (build steps).checker.answer question) ∧
    (∀ scope parent,
      (∀ question, question ≠ .scopeInfo scope →
        ((build steps).perform (.setScopeParent scope parent)).2.checker.answer question =
          (build steps).checker.answer question) ∧
      ((build steps).Has (.scope scope) →
        ((build steps).perform (.setScopeParent scope parent)).2.checker.scopeInfo scope =
          { (build steps).checker.scopeInfo scope with parent := parent })) ∧
    (∀ symbol type,
      (∀ question,
        ((build steps).perform (.setSymbolType symbol type)).2.checker.answer question =
          (build steps).checker.answer question) ∧
      ((build steps).Has (.symbol symbol) → ∀ text,
        (((build steps).setSymbolType symbol type).addReference symbol text).2.checker.typeAt
          (((build steps).setSymbolType symbol type).addReference symbol text).1.node = type)) ∧
    (∀ node type,
      (∀ question, question ≠ .typeAt node →
        ((build steps).perform (.setNodeType node type)).2.checker.answer question =
          (build steps).checker.answer question) ∧
      ((build steps).perform (.setNodeType node type)).2.checker.typeAt node = type) ∧
    ∀ later question, (build steps).Has question.handle →
      (∀ step ∈ later, step.touched? ≠ some question) →
        (build (steps ++ later)).checker.answer question =
          (build steps).checker.answer question := by
  obtain ⟨hnodup, hfresh⟩ := fresh_handles empty steps
  obtain ⟨hspans, hordered⟩ := laidOut_identifiers empty steps
  refine ⟨⟨hnodup, fun handle hmem => (hfresh handle hmem).2⟩,
    ⟨texts_identifiers empty steps, fun identifier hmem => (hspans identifier hmem).2, hordered⟩,
    ?_, ?_, ?_, ?_, ?_⟩
  · intro step question hsetter hhas
    apply ((build steps).retains_perform step).answer hhas
    rw [BuildStep.touched?_of_not_isSetter hsetter]
    exact (Option.some_ne_none question).symm
  · intro scope parent
    exact ⟨fun _ => (build steps).answer_setScopeParent parent,
      fun hscope => (build steps).scopeInfo_setScopeParent hscope parent⟩
  · intro symbol type
    exact ⟨(build steps).answer_setSymbolType symbol type,
      fun hsymbol => (build steps).typeAt_addReference_setSymbolType hsymbol type⟩
  · intro node type
    exact ⟨fun _ => (build steps).answer_setNodeType type,
      (build steps).typeAt_setNodeType node type⟩
  · intro later question hhas huntouched
    rw [build_append]
    exact answer_performAll hhas huntouched

/-- A namespace with a variable, two nodes, and the parent of the namespace taken away. -/
def twoNodes : List BuildStep :=
  [.file "main.ts" true, .nameSpace ⟨0⟩ "n" { exported := true }, .declare ⟨1⟩ "x" {},
    .reference ⟨1⟩ "x", .setScopeParent ⟨1⟩ none, .unbound "é"]

theorem handles_stay_valid_twoNodes :
    empty.handles twoNodes =
      [.scope ⟨0⟩, .scope ⟨1⟩, .symbol ⟨0⟩, .symbol ⟨1⟩, .node ⟨0⟩, .node ⟨1⟩] ∧
    (empty.handles twoNodes).Nodup ∧ (build twoNodes).Has (.node ⟨0⟩) ∧
    ((build twoNodes).perform (.library .standard "Promise")).2.checker.symbolAt ⟨0⟩ = some ⟨1⟩ ∧
    ((build twoNodes).perform (.setScopeParent ⟨1⟩ (some ⟨0⟩))).2.checker.scopeInfo ⟨0⟩ =
      (build twoNodes).checker.scopeInfo ⟨0⟩ ∧
    ((build twoNodes).perform (.setNodeType ⟨1⟩ ⟨3⟩)).2.checker.typeAt ⟨0⟩ = unknownType := by
  obtain ⟨⟨hnodup, _⟩, _, hstep, hmove, _, hretype, _⟩ := handles_stay_valid twoNodes
  have hhas : (build twoNodes).Has (.node ⟨0⟩) := by decide
  refine ⟨rfl, hnodup, hhas, ?_, ?_, ?_⟩
  · exact hstep (.library .standard "Promise") (.symbolAt ⟨0⟩) rfl hhas
  · exact (hmove ⟨1⟩ (some ⟨0⟩)).1 (.scopeInfo ⟨0⟩) (by decide)
  · exact (hretype ⟨1⟩ ⟨3⟩).1 (.typeAt ⟨0⟩) (by decide)

end Program

end LuaLowering
