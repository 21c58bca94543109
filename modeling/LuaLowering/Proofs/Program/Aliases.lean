import LuaLowering.Proofs.Chain
import LuaLowering.Proofs.Program.Libraries

namespace LuaLowering

theorem Symbol.index_injective : Function.Injective Symbol.index := by
  rintro ⟨first⟩ ⟨second⟩ hindex
  exact congrArg Symbol.mk hindex

namespace Program

/-! Chains of aliases.  An alias may stand for any symbol, declared or not, so a chain need not end;
one that does is followed to its end. -/

def IsAliasOf (program : Program) (symbol target : Symbol) : Prop :=
  program.aliasTarget? symbol = some target

/-- The chain from the symbol comes to the last one, which is no alias or was never declared. -/
def EndsAt (program : Program) (symbol last : Symbol) : Prop :=
  ∃ passed, Chain program.IsAliasOf symbol passed last

section Chains

variable {program : Program} {symbol target last : Symbol} {passed : List Symbol}

theorem rightUnique_isAliasOf (program : Program) : Relator.RightUnique program.IsAliasOf :=
  fun _ _ _ halias hother => Option.some.inj (halias.symm.trans hother)

theorem index_lt_of_isAliasOf (halias : program.IsAliasOf symbol target) :
    symbol.index < program.symbolCount := by
  obtain ⟨declaration, hdeclaration, _⟩ := Option.bind_eq_some_iff.mp halias
  exact (Array.getElem?_eq_some_iff.mp hdeclaration).1

theorem aliasTarget?_eq_none_iff :
    program.aliasTarget? symbol = none ↔ ∀ target, ¬ program.IsAliasOf symbol target :=
  Option.eq_none_iff_forall_ne_some

theorem followAliases_of_chain (hchain : Chain program.IsAliasOf symbol passed last) {steps : Nat}
    (hsteps : passed.length ≤ steps) : program.followAliases steps symbol = last := by
  induction hchain generalizing steps with
  | stop hstop =>
      cases steps with
      | zero => rfl
      | succ steps => simp only [followAliases, aliasTarget?_eq_none_iff.mpr hstop]
  | step halias _ ih =>
      cases steps with
      | zero => exact absurd hsteps (Nat.not_succ_le_zero _)
      | succ steps =>
          rw [IsAliasOf] at halias
          simp only [followAliases, halias]
          exact ih (Nat.le_of_succ_le_succ hsteps)

/-- Each alias on a chain is a symbol of its own, so there are steps enough for all of them. -/
theorem aliased_of_endsAt (hends : program.EndsAt symbol last) : program.aliased symbol = last := by
  obtain ⟨passed, hchain⟩ := hends
  apply followAliases_of_chain hchain
  exact hchain.length_le program.rightUnique_isAliasOf Symbol.index_injective
    fun _ _ => index_lt_of_isAliasOf

theorem endsAt_followAliases (steps : Nat) (symbol : Symbol)
    (hlast : program.aliasTarget? (program.followAliases steps symbol) = none) :
    program.EndsAt symbol (program.followAliases steps symbol) := by
  induction steps generalizing symbol with
  | zero => exact ⟨[], .stop (aliasTarget?_eq_none_iff.mp hlast)⟩
  | succ steps ih =>
      cases halias : program.aliasTarget? symbol with
      | none =>
          simp only [followAliases, halias]
          exact ⟨[], .stop (aliasTarget?_eq_none_iff.mp halias)⟩
      | some target =>
          simp only [followAliases, halias] at hlast ⊢
          obtain ⟨passed, hchain⟩ := ih target hlast
          exact ⟨symbol :: passed, .step halias hchain⟩

theorem endsAt_iff :
    program.EndsAt symbol last ↔
      program.aliased symbol = last ∧ program.aliasTarget? last = none := by
  constructor
  · intro hends
    obtain ⟨passed, hchain⟩ := hends
    exact ⟨aliased_of_endsAt ⟨passed, hchain⟩, aliasTarget?_eq_none_iff.mpr hchain.stops⟩
  · rintro ⟨rfl, hlast⟩
    exact endsAt_followAliases program.symbolCount symbol hlast

end Chains

/-! Aliases of symbols that are there already. -/

def PointsBack (program : Program) : Prop :=
  ∀ symbol target, program.IsAliasOf symbol target → target.index < symbol.index

theorem exists_endsAt_of_pointsBack {program : Program} (hback : program.PointsBack)
    (symbol : Symbol) : ∃ last, program.EndsAt symbol last := by
  induction hindex : symbol.index using Nat.strongRecOn generalizing symbol with
  | ind index ih =>
      subst hindex
      cases halias : program.aliasTarget? symbol with
      | none => exact ⟨symbol, [], .stop (aliasTarget?_eq_none_iff.mp halias)⟩
      | some target =>
          obtain ⟨last, passed, hchain⟩ := ih target.index (hback symbol target halias) target rfl
          exact ⟨last, symbol :: passed, .step halias hchain⟩

section Step

variable {program newer : Program} {symbol target : Symbol}

theorem isAliasOf_of_push {new : Declaration}
    (hdeclarations : newer.declarations = program.declarations.push new)
    (halias : newer.IsAliasOf symbol target) :
    program.IsAliasOf symbol target ∨
      symbol = ⟨program.symbolCount⟩ ∧ new.aliasOf = some target := by
  simp only [IsAliasOf, aliasTarget?, declaration?, hdeclarations, Array.getElem?_push] at halias
  split at halias
  · rename_i hindex
    exact Or.inr ⟨Symbol.index_injective hindex, halias⟩
  · exact Or.inl halias

theorem isAliasOf_setSymbolType {other : Symbol} {type : Ty}
    (halias : (program.setSymbolType other type).IsAliasOf symbol target) :
    program.IsAliasOf symbol target := by
  rw [IsAliasOf, aliasTarget?, declaration?_setSymbolType, Option.bind_map] at halias
  exact halias

/-- Only the declaration of an alias makes an alias, and of a new symbol. -/
theorem isAliasOf_perform {step : BuildStep}
    (halias : (program.perform step).2.IsAliasOf symbol target) :
    program.IsAliasOf symbol target ∨
      symbol = ⟨program.symbolCount⟩ ∧ ∃ scope name, step = .declareAlias scope name target := by
  have hplain {new : Declaration}
      (hdeclarations : (program.perform step).2.declarations = program.declarations.push new)
      (hnew : new.aliasOf = none) : program.IsAliasOf symbol target := by
    rcases isAliasOf_of_push hdeclarations halias with hold | ⟨_, htarget⟩
    · exact hold
    · cases hnew.symm.trans htarget
  cases step with
  | declareAlias scope name other =>
      rcases isAliasOf_of_push rfl halias with hold | ⟨hsymbol, htarget⟩
      · exact Or.inl hold
      · obtain rfl := Option.some.inj htarget
        exact Or.inr ⟨hsymbol, scope, name, rfl⟩
  | nameSpace parent name modifiers => exact Or.inl (hplain rfl rfl)
  | declare scope name modifiers => exact Or.inl (hplain rfl rfl)
  | library library name =>
      have hdeclarations := (libraryFile_keeps program library).1
      exact Or.inl (hplain (congrArg (Array.push · _) hdeclarations) rfl)
  | setSymbolType other type => exact Or.inl (isAliasOf_setSymbolType halias)
  | reference other text =>
      rw [perform, addReference_eq] at halias
      exact Or.inl halias
  | file | scope | setScopeParent | type | unbound | setNodeType => exact Or.inl halias

end Step

/-- Every alias was declared when its target was there already. -/
def AliasesExisting (steps : List BuildStep) : Prop :=
  ∀ before after scope name target,
    steps = before ++ .declareAlias scope name target :: after →
      target.index < (build before).symbolCount

theorem pointsBack_build {steps : List BuildStep} (hexisting : AliasesExisting steps) :
    (build steps).PointsBack := by
  induction steps using List.reverseRecOn with
  | nil =>
      intro symbol target halias
      cases halias
  | append_singleton steps step ih =>
      intro symbol target halias
      rw [build_append] at halias
      -- An older alias points back already, and the target of a new one is older than itself.
      rcases isAliasOf_perform halias with hold | ⟨rfl, scope, name, rfl⟩
      · refine ih ?_ symbol target hold
        rintro before after scope name target rfl
        exact hexisting before (after ++ [step]) scope name target (by simp)
      · exact hexisting steps [] scope name target rfl

/-- What an alias stands for is the end of its chain, whenever there is one, in whatever order the
aliases were declared.  If each was declared when its target was there already, every chain has an
end. -/
theorem aliased_eq_end_of_chain :
    (∀ program symbol last, EndsAt program symbol last ↔
      program.aliased symbol = last ∧ program.aliasTarget? last = none) ∧
    ∀ steps, AliasesExisting steps → ∀ symbol,
      (∃ last, (build steps).EndsAt symbol last) ∧
      (build steps).aliased ((build steps).aliased symbol) = (build steps).aliased symbol ∧
      (build steps).aliasTarget? ((build steps).aliased symbol) = none := by
  constructor
  · intro program symbol last
    exact endsAt_iff
  · intro steps hexisting symbol
    obtain ⟨last, hends⟩ := exists_endsAt_of_pointsBack (pointsBack_build hexisting) symbol
    obtain ⟨rfl, hlast⟩ := endsAt_iff.mp hends
    exact ⟨⟨_, hends⟩, aliased_of_aliasTarget? hlast, hlast⟩

/-- Each alias stands for the next symbol, and the last one for a symbol that is never declared. -/
def forwardAliases : Program :=
  build [.file "main.ts" true, .declareAlias ⟨0⟩ "a" ⟨1⟩, .declareAlias ⟨0⟩ "b" ⟨2⟩,
    .declareAlias ⟨0⟩ "c" ⟨3⟩]

/-- An alias of an alias of a library's declaration. -/
def importedTwice : List BuildStep :=
  [.library .extensions "$multi", .declareAlias ⟨0⟩ "m" ⟨0⟩, .declareAlias ⟨0⟩ "mm" ⟨1⟩]

theorem aliased_forwardAliases_and_importedTwice :
    (forwardAliases.symbolCount = 3 ∧ forwardAliases.EndsAt ⟨0⟩ ⟨3⟩ ∧
      forwardAliases.aliased ⟨0⟩ = ⟨3⟩) ∧
    (AliasesExisting importedTwice ∧ (build importedTwice).aliased ⟨2⟩ = ⟨0⟩ ∧
      (build importedTwice).aliased ⟨0⟩ = ⟨0⟩ ∧
      (build importedTwice).aliasTarget? ⟨0⟩ = none) := by
  obtain ⟨hends, hback⟩ := aliased_eq_end_of_chain
  constructor
  · have hforward : forwardAliases.EndsAt ⟨0⟩ ⟨3⟩ :=
      ⟨[⟨0⟩, ⟨1⟩, ⟨2⟩], .step rfl (.step rfl (.step rfl (.stop (by rintro target ⟨⟩))))⟩
    exact ⟨rfl, hforward, ((hends _ _ _).mp hforward).1⟩
  · have hexisting : AliasesExisting importedTwice := by
      intro before after scope name target hsteps
      rcases before with _ | ⟨first, _ | ⟨second, _ | ⟨third, before⟩⟩⟩
      · cases hsteps
      · cases hsteps
        decide
      · cases hsteps
        decide
      · simp [importedTwice] at hsteps
    have haliased : (build importedTwice).aliased ⟨2⟩ = ⟨0⟩ := rfl
    have hmulti := hback importedTwice hexisting ⟨2⟩
    rw [haliased] at hmulti
    exact ⟨hexisting, haliased, hmulti.2⟩

end Program

end LuaLowering
