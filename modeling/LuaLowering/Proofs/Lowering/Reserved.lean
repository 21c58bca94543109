import LuaLowering.Polyfill.Prelude
import LuaLowering.Proofs.Lowering.Names

namespace LuaLowering

/-! Words with the reserved opening that name nothing of the source: the tables that emitted code
declares for itself, and the placeholder. -/

namespace Lua

theorem emit_eq_mangle_iff {name word : String} :
    emit name = mangle word ↔ name = word ∧ needsMangling word = true := by
  constructor
  · intro heq
    cases hword : needsMangling word with
    | false => exact absurd heq (emit_ne_mangle hword name)
    | true =>
        rw [← emit_of_needsMangling hword] at heq
        exact ⟨emit_injective heq, rfl⟩
  · rintro ⟨rfl, hname⟩
    exact emit_of_needsMangling hname

theorem flatMap_mangleChar_of_isAlphanum {chars : List Char}
    (hchars : chars.all Char.isAlphanum = true) : chars.flatMap mangleChar = chars := by
  induction chars with
  | nil => rfl
  | cons c chars ih =>
      rw [List.all_cons, Bool.and_eq_true] at hchars
      rw [List.flatMap_cons, mangleChar_of_isAlphanum hchars.1, ih hchars.2, List.singleton_append]

theorem mangle_of_isAlphanum {word : String} (hword : word.toList.all Char.isAlphanum = true) :
    mangle word = reservedOpening ++ word := by
  apply String.toList_injective
  rw [toList_mangle, flatMap_mangleChar_of_isAlphanum hword, String.toList_append]

end Lua

/-- The table that the prelude declares for the library. -/
def Prelude.libraryTable : String := "____lualib"

namespace Lua

/-- A word behind the reserved opening spells no name if the word can stand as written, and only the
word itself if it cannot.  So no name is spelled like the tables of emitted code. -/
theorem emit_avoids_tables :
    (∀ word : String, word.toList.all Char.isAlphanum = true → needsMangling word = false →
      ∀ name, emit name ≠ reservedOpening ++ word) ∧
    (∀ word : String, word.toList.all Char.isAlphanum = true → needsMangling word = true →
      ∀ name, emit name = reservedOpening ++ word ↔ name = word) ∧
    (∀ name, emit name ≠ ExportPath.moduleTable ∧ emit name ≠ Prelude.libraryTable) ∧
    Prelude.requireLine = "local " ++ Prelude.libraryTable ++ " = require(\"lualib_bundle\")" := by
  have havoids (word : String) (hword : word.toList.all Char.isAlphanum = true)
      (hkept : needsMangling word = false) (name : String) :
      emit name ≠ reservedOpening ++ word := by
    rw [← mangle_of_isAlphanum hword]
    exact emit_ne_mangle hkept name
  refine ⟨havoids, ?_, ?_, rfl⟩
  · intro word hword hmangled name
    rw [← mangle_of_isAlphanum hword, emit_eq_mangle_iff]
    exact and_iff_left hmangled
  · intro name
    exact ⟨ExportPath.emit_ne_moduleTable name, havoids "lualib" (by decide) (by decide) name⟩

theorem emit_avoids_tables_temp1 :
    (needsMangling "temp1" = false ∧ emit "temp1" ≠ "____temp1" ∧
      emit "____temp1" ≠ "____temp1") ∧
    (needsMangling "end" = true ∧ emit "end" = "____end" ∧ emit "____end" ≠ "____end") := by
  obtain ⟨hkept, hmangled, _⟩ := emit_avoids_tables
  have htemp := hkept "temp1" (by decide) (by decide)
  have hend := hmangled "end" (by decide) (by decide)
  refine ⟨⟨by decide, htemp "temp1", htemp "____temp1"⟩, by decide, (hend "end").mpr rfl, ?_⟩
  intro heq
  exact absurd ((hend "____end").mp heq) (by decide)

/-! The placeholder. -/

theorem emit_eq_placeholderText_iff {name : String} :
    emit name = Ident.placeholderText ↔ name = "" := by
  have hempty : Ident.placeholderText = mangle "" := by decide
  rw [hempty, emit_eq_mangle_iff]
  exact and_iff_left (by decide)

theorem Ident.isPlaceholder_iff {word : Ident} :
    word.isPlaceholder = true ↔ word.text = placeholderText ∧ word.identity = none := by
  simp [isPlaceholder]

end Lua

namespace Environment

open Lower

/-- Only a name that is bound to no symbol has no identity. -/
theorem symbol_eq_none_of_lowerName (env : Environment) (identifier : Identifier)
    (symbol : Option Symbol) :
    Yields (env.lowerName identifier symbol) fun word => word.identity = none → symbol = none := by
  refine Yields.bind_any fun mangled => ?_
  cases symbol with
  | none => exact Yields.bind_any fun _ => Yields.pure fun _ => rfl
  | some symbol =>
      have hidentity : Yields (identifyAll (some symbol) identifier.span)
          fun identity => identity ≠ none :=
        Yields.bind_any fun _ => Yields.pure (Option.some_ne_none _)
      exact Yields.bind hidentity fun identity hsome => Yields.pure fun hnone => absurd hnone hsome

section Placeholder

variable {env : Environment} {identifier : Identifier}

theorem spelling_of_unbound (hsymbol : env.checker.symbolAt identifier.node = none) :
    env.spelling identifier = Lua.emit identifier.text := by
  apply spelling_of_not_ambient
  · intro symbol hbound
    cases hsymbol.symm.trans hbound
  · rw [isAmbientAt, hsymbol]
    rfl

theorem not_isPlaceholder_of_isStandard (htext : identifier.text ≠ "")
    (hstandard : env.IsStandard identifier) :
    Yields (env.lowerIdentifier identifier) fun word => ¬ word.isPlaceholder = true := by
  have hspelled := text_lowerIdentifier_of_isStandard hstandard
  have hbound : Yields (env.lowerIdentifier identifier) fun word =>
      word.identity = none → env.checker.symbolAt identifier.node = none := by
    rw [lowerIdentifier, classify_of_isStandard hstandard]
    exact Yields.bind_any fun _ => Yields.bind_any fun _ =>
      env.symbol_eq_none_of_lowerName identifier _
  refine (hspelled.and hbound).mono ?_
  rintro word ⟨hword, hsymbol⟩ hplaceholder
  -- Without an identity the name is unbound, so its own text decides how it is spelled.
  obtain ⟨hplaced, hidentity⟩ := Lua.Ident.isPlaceholder_iff.mp hplaceholder
  rw [hword, spelling_of_unbound (hsymbol hidentity)] at hplaced
  exact htext (Lua.emit_eq_placeholderText_iff.mp hplaced)

theorem isPlaceholder_lowerIdentifier (htext : identifier.text ≠ "") :
    Yields (env.lowerIdentifier identifier) fun word =>
      word.isPlaceholder = true ↔ ∃ marker, env.classify identifier = .marker marker := by
  have hspec := env.classifies_classify identifier
  cases hclass : env.classify identifier with
  | continuation =>
      rw [lowerIdentifier, hclass]
      refine Yields.pure ?_
      simp [Lua.Ident.isPlaceholder_iff, Lua.Ident.temporary]
  | marker marker =>
      rw [lowerIdentifier, hclass]
      refine Yields.bind_any fun _ => Yields.pure ?_
      simp [Lua.Ident.isPlaceholder_iff, Lua.Ident.placeholder]
  | builtin feature notes =>
      rw [hclass] at hspec
      cases hspec
      rw [lowerIdentifier, hclass]
      refine Yields.bind_any fun _ => Yields.bind_any fun _ => Yields.pure ?_
      have hentry : Feature.promise.entryPoint ≠ Lua.Ident.placeholderText := by decide
      simp [Lua.Ident.isPlaceholder_iff, hentry]
  | standard symbol type notes =>
      refine (not_isPlaceholder_of_isStandard htext ⟨symbol, type, notes, hclass⟩).mono ?_
      intro word hword
      simp [hword]

theorem outcome_lowerIdentifier_of_marker {marker : Marker}
    (hmarker : env.classify identifier = .marker marker) (state : UnitState) :
    (env.lowerIdentifier identifier).outcome state =
      (.ok (.placeholder identifier.span),
        { state with
          log := state.log.add (.located env.unit identifier.span marker.misuse) }) := by
  rw [lowerIdentifier, hmarker]
  rfl

/-- The placeholder stands where a marker was replaced, and nowhere else: it has no name, no
identity and the place of the marker, and the misuse is all that was reported. -/
theorem lowerIdentifier_isPlaceholder_iff {state after : UnitState} {word : Lua.Ident}
    (htext : identifier.text ≠ "")
    (hrun : (env.lowerIdentifier identifier).outcome state = (.ok word, after)) :
    (word.isPlaceholder = true ↔ ∃ marker, env.classify identifier = .marker marker) ∧
    ∀ marker, env.classify identifier = .marker marker →
      word.sourceName = none ∧ word.identity = none ∧ word.span = some identifier.span ∧
      after.log.entries =
        state.log.entries ++ [.located env.unit identifier.span marker.misuse] := by
  refine ⟨isPlaceholder_lowerIdentifier htext hrun, ?_⟩
  intro marker hmarker
  rw [outcome_lowerIdentifier_of_marker hmarker] at hrun
  cases hrun
  exact ⟨rfl, rfl, rfl, rfl⟩

end Placeholder

/-- A marker outside its position, and a name that is written like the placeholder. -/
def bareRange : Environment :=
  ofProgram (Program.build
    [.library .extensions "$range", .reference ⟨0⟩ "$range", .unbound "____"])

def rangeRead : Identifier := { node := ⟨0⟩, text := "$range", span := .ofLength 0 6 }

def underscoresRead : Identifier := { node := ⟨1⟩, text := "____", span := .ofLength 7 4 }

theorem bareRange_isPlaceholder :
    (∃ word after, (bareRange.lowerIdentifier rangeRead).outcome {} = (.ok word, after) ∧
      bareRange.classify rangeRead = .marker .range ∧ word.isPlaceholder = true ∧
      after.log.entries = [.located ⟨0⟩ rangeRead.span .rangeMisuse]) ∧
    ∃ word after, (bareRange.lowerIdentifier underscoresRead).outcome {} = (.ok word, after) ∧
      bareRange.classify underscoresRead = .standard none ⟨0⟩ {} ∧
      ¬ word.isPlaceholder = true := by
  constructor
  · obtain ⟨word, after, hrun⟩ : ∃ word after,
        (bareRange.lowerIdentifier rangeRead).outcome {} = (.ok word, after) := ⟨_, _, rfl⟩
    obtain ⟨hiff, hmarker⟩ := lowerIdentifier_isPlaceholder_iff (by decide) hrun
    have hclass : bareRange.classify rangeRead = .marker .range := by decide
    exact ⟨word, after, hrun, hclass, hiff.mpr ⟨.range, hclass⟩, (hmarker .range hclass).2.2.2⟩
  · obtain ⟨word, after, hrun⟩ : ∃ word after,
        (bareRange.lowerIdentifier underscoresRead).outcome {} = (.ok word, after) := ⟨_, _, rfl⟩
    obtain ⟨hiff, _⟩ := lowerIdentifier_isPlaceholder_iff (by decide) hrun
    have hclass : bareRange.classify underscoresRead = .standard none ⟨0⟩ {} := by decide
    refine ⟨word, after, hrun, hclass, ?_⟩
    rw [hiff, hclass]
    rintro ⟨marker, ⟨⟩⟩

end Environment

end LuaLowering
