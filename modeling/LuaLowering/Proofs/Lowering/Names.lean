import LuaLowering.Lowering.Identifier
import LuaLowering.Program.Script
import LuaLowering.Proofs.Export.Access
import LuaLowering.Proofs.Lowering.Outcome

namespace LuaLowering.Environment

open Lower

/-! Which identifiers fall into which kind. -/

def notesOf (env : Environment) (identifier : Identifier) : Notes :=
  { misplaced := env.markerOf identifier
    deprecated := env.deprecatedTag? (env.checker.typeAt identifier.node) }

/-- The kinds of identifiers, each with all that is known of an identifier of that kind. -/
inductive Classifies (env : Environment) (identifier : Identifier) : Classification → Prop
  | continuation (hchain : identifier.continuesChain = true) :
      Classifies env identifier .continuation
  | marker {marker : Marker} (hchain : identifier.continuesChain = false)
      (hmarker : env.markerOf identifier = some marker) (hreplaced : marker.isReplaced = true) :
      Classifies env identifier (.marker marker)
  | builtin (hchain : identifier.continuesChain = false)
      (hmarker : (env.markerOf identifier).filter Marker.isReplaced = none)
      (hsubstitute : env.bindings.builtins.substitute? env.checker
        (env.checker.symbolAt identifier.node) (env.checker.typeAt identifier.node) =
          some .promise) :
      Classifies env identifier (.builtin .promise (env.notesOf identifier))
  | standard (hchain : identifier.continuesChain = false)
      (hmarker : (env.markerOf identifier).filter Marker.isReplaced = none)
      (hsubstitute : env.bindings.builtins.substitute? env.checker
        (env.checker.symbolAt identifier.node) (env.checker.typeAt identifier.node) = none) :
      Classifies env identifier
        (.standard (env.checker.symbolAt identifier.node) (env.checker.typeAt identifier.node)
          (env.notesOf identifier))

theorem eq_promise_of_substitute? {table : BuiltinTable} {checker : Checker}
    {symbol : Option Symbol} {type : Ty} {feature : Feature}
    (hsubstitute : table.substitute? checker symbol type = some feature) : feature = .promise := by
  cases symbol with
  | none => cases hsubstitute
  | some symbol =>
      simp only [BuiltinTable.substitute?] at hsubstitute
      split at hsubstitute
      · exact (Option.some.inj hsubstitute).symm
      · cases hsubstitute

theorem classifies_classify (env : Environment) (identifier : Identifier) :
    Classifies env identifier (env.classify identifier) := by
  cases hchain : identifier.continuesChain with
  | true =>
      simp only [classify, hchain, if_true]
      exact .continuation hchain
  | false =>
      simp only [classify, hchain, Bool.false_eq_true, if_false]
      cases hmarker : (env.markerOf identifier).filter Marker.isReplaced with
      | some marker =>
          obtain ⟨hsome, hreplaced⟩ := Option.filter_eq_some_iff.mp hmarker
          exact .marker hchain hsome hreplaced
      | none =>
          cases hsubstitute : env.bindings.builtins.substitute? env.checker
              (env.checker.symbolAt identifier.node) (env.checker.typeAt identifier.node) with
          | some feature =>
              obtain rfl := eq_promise_of_substitute? hsubstitute
              exact .builtin hchain hmarker hsubstitute
          | none => exact .standard hchain hmarker hsubstitute

def IsStandard (env : Environment) (identifier : Identifier) : Prop :=
  ∃ symbol type notes, env.classify identifier = .standard symbol type notes

theorem classify_of_isStandard {env : Environment} {identifier : Identifier}
    (hstandard : env.IsStandard identifier) :
    env.classify identifier =
      .standard (env.checker.symbolAt identifier.node) (env.checker.typeAt identifier.node)
        (env.notesOf identifier) := by
  obtain ⟨symbol, type, notes, hclassify⟩ := hstandard
  have hspec := env.classifies_classify identifier
  rw [hclassify] at hspec ⊢
  cases hspec
  rfl

/-! How an ordinary name is spelled. -/

def isAmbientAt (env : Environment) (identifier : Identifier) : Bool :=
  (env.checker.symbolAt identifier.node).any env.checker.isAmbient

/-- An identifier that is unbound, or written as the declaration of its symbol is. -/
def SpelledAsDeclared (env : Environment) (identifier : Identifier) : Prop :=
  ∀ symbol, env.checker.symbolAt identifier.node = some symbol →
    identifier.text = env.checker.symbolName symbol

/-- The answer of `mustMangle`, without what it reports. -/
def mangles (env : Environment) (identifier : Identifier) : Option Symbol → Bool
  | none => Lua.needsMangling identifier.text
  | some symbol =>
      if env.checker.isAmbient symbol then !Lua.isIdentifier (env.checker.symbolName symbol)
      else Lua.needsMangling (env.checker.symbolName symbol)

def isRespelled (env : Environment) (identifier : Identifier) : Bool :=
  env.mangles identifier (env.checker.symbolAt identifier.node)

def spelling (env : Environment) (identifier : Identifier) : String :=
  if env.isRespelled identifier then Lua.mangle identifier.text else identifier.text

theorem mangles_mustMangle (env : Environment) (identifier : Identifier)
    (symbol : Option Symbol) :
    Yields (env.mustMangle identifier symbol) (· = env.mangles identifier symbol) := by
  cases symbol with
  | none => exact Yields.pure rfl
  | some symbol =>
      simp only [mustMangle, mangles]
      cases hambient : env.checker.isAmbient symbol with
      | false => exact Yields.pure rfl
      | true =>
          cases hvalid : Lua.isIdentifier (env.checker.symbolName symbol) with
          | true => exact Yields.pure rfl
          | false => exact Yields.bind_any fun _ => Yields.pure rfl

theorem text_lowerName (env : Environment) (identifier : Identifier) (symbol : Option Symbol) :
    Yields (env.lowerName identifier symbol) fun word =>
      word.text =
        if env.mangles identifier symbol then Lua.mangle identifier.text else identifier.text := by
  refine Yields.bind (env.mangles_mustMangle identifier symbol) ?_
  rintro mangled rfl
  exact Yields.bind_any fun _ => Yields.pure rfl

theorem text_lowerIdentifier_of_isStandard {env : Environment} {identifier : Identifier}
    (hstandard : env.IsStandard identifier) :
    Yields (env.lowerIdentifier identifier) fun word => word.text = env.spelling identifier := by
  rw [lowerIdentifier, classify_of_isStandard hstandard]
  exact Yields.bind_any fun _ => Yields.bind_any fun _ => env.text_lowerName identifier _

section Declared

variable {env : Environment} {identifier : Identifier}

theorem isRespelled_of_spelledAsDeclared (hspelled : env.SpelledAsDeclared identifier) :
    env.isRespelled identifier =
      if env.isAmbientAt identifier then !Lua.isIdentifier identifier.text
      else Lua.needsMangling identifier.text := by
  unfold isRespelled isAmbientAt
  cases hsymbol : env.checker.symbolAt identifier.node with
  | none => rfl
  | some symbol =>
      rw [hspelled symbol hsymbol]
      rfl

theorem spelling_of_not_ambient (hspelled : env.SpelledAsDeclared identifier)
    (hambient : env.isAmbientAt identifier = false) :
    env.spelling identifier = Lua.emit identifier.text := by
  rw [spelling, isRespelled_of_spelledAsDeclared hspelled, hambient]
  rfl

theorem isIdentifier_spelling (hspelled : env.SpelledAsDeclared identifier) :
    Lua.isIdentifier (env.spelling identifier) = true := by
  cases hambient : env.isAmbientAt identifier with
  | false =>
      rw [spelling_of_not_ambient hspelled hambient]
      exact Lua.isIdentifier_emit identifier.text
  | true =>
      rw [spelling, isRespelled_of_spelledAsDeclared hspelled, hambient]
      cases hvalid : Lua.isIdentifier identifier.text with
      | false => exact Lua.isIdentifier_mangle identifier.text
      | true => exact hvalid

end Declared

/-! Ambient names are kept even where their opening is reserved, so that a respelled name can meet
one of them.  Nothing else can make two names meet. -/

/-- An ambient name that is written like the other name once that is respelled. -/
def Captures (env : Environment) (ambient other : Identifier) : Prop :=
  env.isAmbientAt ambient = true ∧ env.isRespelled other = true ∧
    ambient.text = Lua.mangle other.text

section Meeting

variable {env : Environment} {first second : Identifier}

theorem isRespelled_eq_false_of_captures (hspelled : env.SpelledAsDeclared first)
    (hcaptures : env.Captures first second) : env.isRespelled first = false := by
  obtain ⟨hambient, _, htext⟩ := hcaptures
  rw [isRespelled_of_spelledAsDeclared hspelled, hambient, htext, Lua.isIdentifier_mangle]
  rfl

theorem spelling_eq_of_captures (hspelled : env.SpelledAsDeclared first)
    (hcaptures : env.Captures first second) : env.spelling first = env.spelling second := by
  have hkept := isRespelled_eq_false_of_captures hspelled hcaptures
  obtain ⟨_, hrespelled, htext⟩ := hcaptures
  simp only [spelling, hkept, hrespelled, if_true, Bool.false_eq_true, if_false, htext]

theorem captures_of_text_eq_mangle (hspelled : env.SpelledAsDeclared first)
    (hkept : env.isRespelled first = false) (hrespelled : env.isRespelled second = true)
    (htext : first.text = Lua.mangle second.text) : env.Captures first second := by
  refine ⟨?_, hrespelled, htext⟩
  by_contra hambient
  rw [isRespelled_of_spelledAsDeclared hspelled, if_neg hambient, htext,
    Lua.needsMangling_mangle] at hkept
  contradiction

theorem spelling_eq_iff_captures (hfirst : env.SpelledAsDeclared first)
    (hsecond : env.SpelledAsDeclared second) (hne : first.text ≠ second.text) :
    env.spelling first = env.spelling second ↔
      env.Captures first second ∨ env.Captures second first := by
  constructor
  · intro heq
    unfold spelling at heq
    -- Two kept names differ as they are written, and so do two respelled ones.
    cases hrespelled : env.isRespelled first <;> cases hrespelled' : env.isRespelled second <;>
      simp only [hrespelled, hrespelled', if_true, Bool.false_eq_true, if_false] at heq
    · exact absurd heq hne
    · exact Or.inl (captures_of_text_eq_mangle hfirst hrespelled hrespelled' heq)
    · exact Or.inr (captures_of_text_eq_mangle hsecond hrespelled' hrespelled heq.symm)
    · exact absurd (Lua.mangle_injective heq) hne
  · rintro (hcaptures | hcaptures)
    · exact spelling_eq_of_captures hfirst hcaptures
    · exact (spelling_eq_of_captures hsecond hcaptures).symm

/-- Two ordinary names that are written differently are lowered alike exactly when one of them is
ambient and stands where respelling puts the other. -/
theorem lowerIdentifier_text_eq_iff_captures {state state' after after' : UnitState}
    {word word' : Lua.Ident}
    (hfirst : env.IsStandard first) (hsecond : env.IsStandard second)
    (hspelled : env.SpelledAsDeclared first) (hspelled' : env.SpelledAsDeclared second)
    (hne : first.text ≠ second.text)
    (hrun : (env.lowerIdentifier first).outcome state = (.ok word, after))
    (hrun' : (env.lowerIdentifier second).outcome state' = (.ok word', after')) :
    word.text = word'.text ↔ env.Captures first second ∨ env.Captures second first := by
  rw [text_lowerIdentifier_of_isStandard hfirst hrun,
    text_lowerIdentifier_of_isStandard hsecond hrun']
  exact spelling_eq_iff_captures hspelled hspelled' hne

end Meeting

def ofProgram (program : Program) : Environment where
  checker := program.checker
  bindings := .ofChecker program.checker
  options := {}
  unit := ⟨0⟩

def ambientEnd : Environment :=
  ofProgram (Program.build
    [.file "main.ts" true, .declare ⟨0⟩ "____end" { ambient := true }, .declare ⟨0⟩ "end" {},
      .reference ⟨0⟩ "____end", .reference ⟨1⟩ "end"])

def keptEnd : Identifier := { node := ⟨0⟩, text := "____end", span := .ofLength 0 7 }

def ownEnd : Identifier := { node := ⟨1⟩, text := "end", span := .ofLength 8 3 }

theorem ambientEnd_captures_end :
    keptEnd.text ≠ ownEnd.text ∧
      ∃ word word' after after',
        (ambientEnd.lowerIdentifier keptEnd).outcome {} = (.ok word, after) ∧
        (ambientEnd.lowerIdentifier ownEnd).outcome after = (.ok word', after') ∧
        word.text = word'.text := by
  have hne : keptEnd.text ≠ ownEnd.text := by decide
  have hkept : ambientEnd.IsStandard keptEnd := ⟨some ⟨0⟩, ⟨0⟩, {}, by decide⟩
  have hown : ambientEnd.IsStandard ownEnd := ⟨some ⟨1⟩, ⟨0⟩, {}, by decide⟩
  have hspelled : ambientEnd.SpelledAsDeclared keptEnd := by
    rintro symbol ⟨⟩
    decide
  have hspelled' : ambientEnd.SpelledAsDeclared ownEnd := by
    rintro symbol ⟨⟩
    decide
  have hcaptures : ambientEnd.Captures keptEnd ownEnd := ⟨by decide, by decide, by decide⟩
  obtain ⟨word, word', after, after', hrun, hrun'⟩ : ∃ word word' after after',
      (ambientEnd.lowerIdentifier keptEnd).outcome {} = (.ok word, after) ∧
      (ambientEnd.lowerIdentifier ownEnd).outcome after = (.ok word', after') :=
    ⟨_, _, _, _, rfl, rfl⟩
  exact ⟨hne, word, word', after, after', hrun, hrun',
    (lowerIdentifier_text_eq_iff_captures hkept hown hspelled hspelled' hne hrun hrun').mpr
      (Or.inl hcaptures)⟩

/-! Names that lowering writes on its own. -/

def entryPoints : List String := [Feature.unpack.entryPoint, Feature.promise.entryPoint]

def insertedNames : List String :=
  ["unpack", "table", "math", "_G", ExportPath.moduleTable] ++ entryPoints

theorem mangle_not_mem_insertedNames {name : String} (hname : Lua.needsMangling name = true) :
    Lua.mangle name ∉ insertedNames := by
  intro hmem
  -- The only inserted name with the reserved opening would come from `exports`, which is kept.
  have hopening : ∀ inserted ∈ insertedNames,
      Lua.reservedOpening.toList <+: inserted.toList → inserted = ExportPath.moduleTable := by
    decide
  have htable := hopening _ hmem (Lua.opening_isPrefix_mangle name)
  rw [← ExportPath.mangle_exports] at htable
  rw [Lua.mangle_injective htable] at hname
  exact absurd hname (by decide)

theorem emit_eq_inserted_iff {name inserted : String} (hinserted : inserted ∈ insertedNames) :
    Lua.emit name = inserted ↔ name = inserted ∧ inserted ∈ entryPoints := by
  have hkept : ∀ inserted ∈ insertedNames,
      Lua.needsMangling inserted = false ↔ inserted ∈ entryPoints := by
    decide
  cases hname : Lua.needsMangling name with
  | true =>
      rw [Lua.emit_of_needsMangling hname]
      constructor
      · intro heq
        rw [← heq] at hinserted
        exact absurd hinserted (mangle_not_mem_insertedNames hname)
      · rintro ⟨rfl, hentry⟩
        rw [(hkept name hinserted).mpr hentry] at hname
        contradiction
  | false =>
      rw [Lua.emit_of_not_needsMangling hname]
      constructor
      · rintro rfl
        exact ⟨rfl, (hkept name hinserted).mp hname⟩
      · exact And.left

/-- A name of the program meets a name that lowering writes exactly when it is itself written like
the entry point of a polyfill. -/
theorem lowerIdentifier_text_eq_inserted_iff {env : Environment} {identifier : Identifier}
    {state after : UnitState} {word : Lua.Ident} {inserted : String}
    (hstandard : env.IsStandard identifier) (hspelled : env.SpelledAsDeclared identifier)
    (hambient : env.isAmbientAt identifier = false)
    (hrun : (env.lowerIdentifier identifier).outcome state = (.ok word, after))
    (hinserted : inserted ∈ insertedNames) :
    word.text = inserted ↔ identifier.text = inserted ∧ inserted ∈ entryPoints := by
  rw [text_lowerIdentifier_of_isStandard hstandard hrun,
    spelling_of_not_ambient hspelled hambient]
  exact emit_eq_inserted_iff hinserted

def ownUnpack : Environment :=
  ofProgram (Program.build
    [.file "main.ts" true, .declare ⟨0⟩ "__TS__Unpack" {}, .reference ⟨0⟩ "__TS__Unpack"])

def ownUnpackRead : Identifier := { node := ⟨0⟩, text := "__TS__Unpack", span := .ofLength 0 12 }

theorem ownUnpack_meets_entry_point :
    ∃ word after,
      (ownUnpack.lowerIdentifier ownUnpackRead).outcome {} = (.ok word, after) ∧
      word.text = Feature.unpack.entryPoint := by
  have hstandard : ownUnpack.IsStandard ownUnpackRead := ⟨some ⟨0⟩, ⟨0⟩, {}, by decide⟩
  have hspelled : ownUnpack.SpelledAsDeclared ownUnpackRead := by
    rintro symbol ⟨⟩
    decide
  have hambient : ownUnpack.isAmbientAt ownUnpackRead = false := by decide
  have hinserted : Feature.unpack.entryPoint ∈ insertedNames := by decide
  obtain ⟨word, after, hrun⟩ : ∃ word after,
      (ownUnpack.lowerIdentifier ownUnpackRead).outcome {} = (.ok word, after) :=
    ⟨_, _, rfl⟩
  exact ⟨word, after, hrun,
    (lowerIdentifier_text_eq_inserted_iff hstandard hspelled hambient hrun hinserted).mpr
      ⟨by decide, by decide⟩⟩

end LuaLowering.Environment
