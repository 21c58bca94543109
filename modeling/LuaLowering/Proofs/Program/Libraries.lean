import LuaLowering.Lowering.State
import LuaLowering.Proofs.Entries
import LuaLowering.Proofs.Program.Growth
import Mathlib.Data.List.Induction
import Mathlib.Data.List.Nodup

namespace LuaLowering

/-! Tables over the declarations of given names. -/

namespace Entries

variable {κ α : Type} [DecidableEq κ]

section Declared

variable {declaration? : String → Option κ}
  (hunique : ∀ {name name' key},
    declaration? name = some key → declaration? name' = some key → name = name')
include hunique

end Declared

end Entries

namespace Marker

/-- The name under which the extension library declares the marker. -/
def declaration : Marker → String
  | multiReturn => multiReturnName
  | operator op => op.declaration
  | tableAccess access => access.declaration
  | vararg => varargName
  | range => rangeName

end Marker

namespace BuildStep

end BuildStep

def Built.symbol? : Built → Option Symbol
  | .symbol made => some made
  | .nameSpace _ made => some made
  | _ => none

namespace Program

/-! Every symbol is made by one step only. -/

/-- One of the steps is the given one, and it gave out the symbol. -/
def Makes (steps : List BuildStep) (step : BuildStep) (symbol : Symbol) : Prop :=
  ∃ before after, steps = before ++ step :: after ∧
    ((build before).perform step).1.symbol? = some symbol

theorem libraryFile_keeps (program : Program) (library : Library) :
    (program.libraryFile library).2.declarations = program.declarations ∧
      (program.libraryFile library).2.libraryDeclarations = program.libraryDeclarations := by
  unfold libraryFile
  cases program.libraryFiles.find? library with
  | some scope => exact ⟨rfl, rfl⟩
  | none => exact ⟨rfl, rfl⟩

theorem perform_symbol? {program : Program} {step : BuildStep} {symbol : Symbol}
    (hmade : (program.perform step).1.symbol? = some symbol) :
    symbol = ⟨program.declarations.size⟩ ∧
      (program.perform step).2.declarations.size = program.declarations.size + 1 := by
  cases step with
  | nameSpace parent name modifiers =>
      cases hmade
      exact ⟨rfl, Array.size_push _⟩
  | declare scope name modifiers =>
      cases hmade
      exact ⟨rfl, Array.size_push _⟩
  | declareAlias scope name target =>
      cases hmade
      exact ⟨rfl, Array.size_push _⟩
  | library library name =>
      cases hmade
      have hdeclarations := (libraryFile_keeps program library).1
      refine ⟨?_, ?_⟩
      · exact congrArg (fun declarations => Symbol.mk declarations.size) hdeclarations
      · calc ((program.libraryFile library).2.declarations.push _).size
            = (program.libraryFile library).2.declarations.size + 1 := Array.size_push _
          _ = program.declarations.size + 1 := by rw [hdeclarations]
  | file | scope | setScopeParent | type | setSymbolType | reference | unbound | setNodeType =>
      cases hmade

theorem build_append (before after : List BuildStep) :
    build (before ++ after) = (build before).performAll after :=
  performAll_append empty before after

theorem index_lt_of_made {before : List BuildStep} {step : BuildStep} {symbol : Symbol}
    (hmade : ((build before).perform step).1.symbol? = some symbol)
    (between : List BuildStep) :
    symbol.index < (build (before ++ step :: between)).declarations.size := by
  obtain ⟨rfl, hsize⟩ := perform_symbol? hmade
  have hle := (extends_performAll ((build before).perform step).2 between).size_le
  rw [build_append]
  change (build before).declarations.size <
    (performAll ((build before).perform step).2 between).declarations.size
  omega

/-- A later step gives out a later symbol. -/
theorem step_eq_of_made {before between after after' : List BuildStep} {step step' : BuildStep}
    {symbol : Symbol} (hmade : ((build before).perform step).1.symbol? = some symbol)
    (hmade' : ((build (before ++ between)).perform step').1.symbol? = some symbol)
    (hrest : step :: after = between ++ step' :: after') : step = step' := by
  cases between with
  | nil => exact (List.cons.inj hrest).1
  | cons first between =>
      obtain ⟨rfl, _⟩ := List.cons.inj hrest
      have hlt := index_lt_of_made hmade between
      rw [(perform_symbol? hmade').1] at hlt
      exact absurd hlt (Nat.lt_irrefl _)

theorem Makes.step_eq {steps : List BuildStep} {step step' : BuildStep} {symbol : Symbol}
    (hmakes : Makes steps step symbol) (hmakes' : Makes steps step' symbol) : step = step' := by
  obtain ⟨before, after, rfl, hmade⟩ := hmakes
  obtain ⟨before', after', hsteps, hmade'⟩ := hmakes'
  rcases List.append_eq_append_iff.mp hsteps with
    ⟨between, rfl, hrest⟩ | ⟨between, rfl, hrest⟩
  · exact step_eq_of_made hmade hmade' hrest
  · exact (step_eq_of_made hmade' hmade hrest).symm

/-! The declarations of libraries. -/

/-- The last step that declares the name in the library gave out the symbol. -/
def Latest (steps : List BuildStep) (library : Library) (name : String) (symbol : Symbol) : Prop :=
  ∃ before after, steps = before ++ .library library name :: after ∧
    ((build before).perform (.library library name)).1 = .symbol symbol ∧
    .library library name ∉ after

section Latest

variable {steps : List BuildStep} {step : BuildStep} {library library' : Library}
  {name name' : String} {symbol : Symbol}

theorem Latest.makes (hlatest : Latest steps library name symbol) :
    Makes steps (.library library name) symbol := by
  obtain ⟨before, after, hsteps, hmade, _⟩ := hlatest
  exact ⟨before, after, hsteps, by rw [hmade]; rfl⟩

theorem Latest.unique (hlatest : Latest steps library name symbol)
    (hlatest' : Latest steps library' name' symbol) : library = library' ∧ name = name' :=
  BuildStep.library.inj (hlatest.makes.step_eq hlatest'.makes)

end Latest

section Own

variable {steps : List BuildStep} {step : BuildStep} {symbol : Symbol}

end Own

/-! Recognition: what the tables of a program know is what its libraries declare last. -/

def bindings (program : Program) : Bindings := .ofChecker program.checker

section Recognition

variable (steps : List BuildStep)

end Recognition

end Program

end LuaLowering
