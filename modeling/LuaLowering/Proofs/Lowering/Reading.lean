import LuaLowering.Proofs.Lowering.Misuse

namespace LuaLowering.Environment

open Lower

/-! The ways of a read.  Only an identifier that is not read in some other way is resolved as a
name, and only then is its marker looked at. -/

section Ways

variable (env : Environment) (identifier : Identifier)

def IsReadThroughTables : Prop :=
  ∃ symbol path, env.checker.symbolAt identifier.node = some symbol ∧
    env.checker.exportPath symbol = .ok (some path)

def IsBuiltinValue : Prop :=
  ∃ symbol value, env.checker.symbolAt identifier.node = some symbol ∧
    env.bindings.builtins.value? env.checker symbol = some value

structure IsResolved : Prop where
  notExported : ¬ env.IsReadThroughTables identifier
  notUndefined : identifier.isUndefined = false
  notBuiltin : ¬ env.IsBuiltinValue identifier

inductive Reads : Lower Lua.Expr → Prop
  | endless {symbol : Symbol} {error : LoweringError}
      (hsymbol : env.checker.symbolAt identifier.node = some symbol)
      (hpath : env.checker.exportPath symbol = .error error) :
      Reads (throw error)
  | exported {symbol : Symbol} {path : ExportPath}
      (hsymbol : env.checker.symbolAt identifier.node = some symbol)
      (hpath : env.checker.exportPath symbol = .ok (some path)) :
      Reads (env.lowerExport identifier symbol path)
  | constant (hother : ¬ env.IsResolved identifier) (value : Lua.Expr) : Reads (pure value)
  | global (hother : ¬ env.IsResolved identifier) {symbol : Symbol}
      (hsymbol : env.checker.symbolAt identifier.node = some symbol)
      (value : Identity → Lua.Expr) :
      Reads (do return value (← Lower.identify symbol identifier.span))
  | resolved (hresolved : env.IsResolved identifier) :
      Reads (do return .ident (← env.lowerIdentifier identifier))

end Ways

section Read

variable {env : Environment} {identifier : Identifier}

theorem exportOf_of_symbolAt {symbol : Symbol}
    (hsymbol : env.checker.symbolAt identifier.node = some symbol) :
    env.exportOf identifier =
      (env.checker.exportPath symbol).map fun path => path.map fun path => (symbol, path) := by
  simp only [exportOf, hsymbol]

theorem lowerRead_of_exportPath {symbol : Symbol} {path : ExportPath}
    (hsymbol : env.checker.symbolAt identifier.node = some symbol)
    (hpath : env.checker.exportPath symbol = .ok (some path)) :
    env.lowerRead identifier = env.lowerExport identifier symbol path := by
  simp only [lowerRead, exportOf_of_symbolAt hsymbol, hpath, Except.map, Option.map_some]

theorem not_isReadThroughTables_of_exportOf (hexport : env.exportOf identifier = .ok none) :
    ¬ env.IsReadThroughTables identifier := by
  intro htables
  obtain ⟨symbol, path, hsymbol, hpath⟩ := htables
  rw [exportOf_of_symbolAt hsymbol, hpath] at hexport
  cases hexport

theorem reads_lowerBuiltinValue (htables : ¬ env.IsReadThroughTables identifier)
    (hundefined : identifier.isUndefined = false) :
    Reads env identifier (do
      match ← env.lowerBuiltinValue identifier with
      | some value => return value
      | none => return .ident (← env.lowerIdentifier identifier)) := by
  unfold lowerBuiltinValue
  cases hsymbol : env.checker.symbolAt identifier.node with
  | none =>
      have hbuiltin : ¬ env.IsBuiltinValue identifier := by
        intro hbuiltin
        obtain ⟨symbol, value, hbound, _⟩ := hbuiltin
        cases hsymbol.symm.trans hbound
      exact .resolved ⟨htables, hundefined, hbuiltin⟩
  | some symbol =>
      simp only
      cases hvalue : env.bindings.builtins.value? env.checker symbol with
      | none =>
          have hbuiltin : ¬ env.IsBuiltinValue identifier := by
            intro hbuiltin
            obtain ⟨other, value, hbound, hother⟩ := hbuiltin
            cases hsymbol.symm.trans hbound
            cases hvalue.symm.trans hother
          exact .resolved ⟨htables, hundefined, hbuiltin⟩
      | some value =>
          have hother : ¬ env.IsResolved identifier := fun hresolved =>
            hresolved.notBuiltin ⟨symbol, value, hsymbol, hvalue⟩
          cases value with
          | notANumber => exact .constant hother _
          | infinity => exact .constant hother _
          | globalThis =>
              simp only [bind_assoc, pure_bind]
              exact .global hother hsymbol _

theorem reads_lowerRead (env : Environment) (identifier : Identifier) :
    Reads env identifier (env.lowerRead identifier) := by
  have hnone (hexport : env.exportOf identifier = .ok none) :
      Reads env identifier (env.lowerRead identifier) := by
    have htables := not_isReadThroughTables_of_exportOf hexport
    simp only [lowerRead, hexport]
    cases hundefined : identifier.isUndefined with
    | true =>
        refine .constant ?_ _
        intro hresolved
        cases hresolved.notUndefined.symm.trans hundefined
    | false => exact reads_lowerBuiltinValue htables hundefined
  cases hsymbol : env.checker.symbolAt identifier.node with
  | none => exact hnone (by simp only [exportOf, hsymbol])
  | some symbol =>
      cases hpath : env.checker.exportPath symbol with
      | error error =>
          have hread : env.lowerRead identifier = throw error := by
            simp only [lowerRead, exportOf_of_symbolAt hsymbol, hpath, Except.map]
          rw [hread]
          exact .endless hsymbol hpath
      | ok found =>
          cases found with
          | some path =>
              rw [lowerRead_of_exportPath hsymbol hpath]
              exact .exported hsymbol hpath
          | none =>
              apply hnone
              rw [exportOf_of_symbolAt hsymbol, hpath]
              rfl

/-! A marker that is read. -/

theorem IsResolved.reachesMarker (hresolved : env.IsResolved identifier)
    (hchain : identifier.continuesChain = false) : env.ReachesMarker identifier where
  notExported hsymbol hpath := hresolved.notExported ⟨_, _, hsymbol, hpath⟩
  notContinued := hchain
  notUndefined := hresolved.notUndefined
  notBuiltin hsymbol := by
    rw [Option.eq_none_iff_forall_ne_some]
    intro value hvalue
    exact hresolved.notBuiltin ⟨_, value, hsymbol, hvalue⟩

theorem reports_lowerRead_of_tables (htables : env.IsReadThroughTables identifier) :
    Reports Diagnostic.isMisuse (env.lowerRead identifier) [] := by
  obtain ⟨symbol, path, hsymbol, hpath⟩ := htables
  rw [lowerRead_of_exportPath hsymbol hpath]
  exact env.silent_lowerExport identifier symbol path

/-- The read of a marker reports its misuse, once, exactly if it does not go through the tables of
exported names. -/
theorem lowerRead_reports_marker_iff {marker : Marker} {state after : UnitState}
    {value : Lua.Expr} (hchain : identifier.continuesChain = false)
    (hundefined : identifier.isUndefined = false) (hbuiltin : ¬ env.IsBuiltinValue identifier)
    (hmarker : env.markerOf identifier = some marker)
    (hrun : (env.lowerRead identifier).outcome state = (.ok value, after)) :
    ∃ pushed, after.log.entries = state.log.entries ++ pushed ∧
      (pushed.count (.located env.unit identifier.span marker.misuse) = 1 ↔
        ¬ env.IsReadThroughTables identifier) ∧
      ∀ diagnostic ∈ pushed, diagnostic.isMisuse →
        diagnostic = .located env.unit identifier.span marker.misuse ∧
          ¬ env.IsReadThroughTables identifier := by
  obtain ⟨pushed, hpushed⟩ := ((env.onlyGathers_lowerRead identifier).gathers hrun).exists_reports
  have hfilter {reported : List Diagnostic}
      (hreports : Reports Diagnostic.isMisuse (env.lowerRead identifier) reported) :
      pushed.filter Diagnostic.isMisuse = reported := by
    have hentries := hreports hrun
    rw [hpushed, List.filter_append] at hentries
    exact List.append_cancel_left hentries
  have hselected : (Diagnostic.located env.unit identifier.span marker.misuse).isMisuse :=
    marker.isMisuse_misuse
  refine ⟨pushed, hpushed, ?_⟩
  by_cases htables : env.IsReadThroughTables identifier
  · have hnone := hfilter (reports_lowerRead_of_tables htables)
    rw [List.filter_eq_nil_iff] at hnone
    have hcount := List.count_eq_zero.mpr fun hmem => hnone _ hmem hselected
    constructor
    · simp [hcount, htables]
    · intro diagnostic hmem hmisuse
      exact absurd hmisuse (hnone diagnostic hmem)
  · have hreaches := IsResolved.reachesMarker ⟨htables, hundefined, hbuiltin⟩ hchain
    have hone := hfilter (reports_lowerRead fun _ => hreaches)
    rw [hmarker] at hone
    constructor
    · rw [← List.count_filter hselected, hone]
      simp [complaint, htables]
    · intro diagnostic hmem hmisuse
      have hfound := List.mem_filter.mpr ⟨hmem, hmisuse⟩
      rw [hone] at hfound
      exact ⟨List.mem_singleton.mp hfound, htables⟩

end Read

/-- Two functions of the type of additions, of which the first one is exported. -/
def additions : Environment :=
  ofProgram (Program.build
    [.file "main.ts" true, .library .extensions "LuaAddition", .type { symbol := some ⟨0⟩ },
      .declare ⟨0⟩ "add" { exported := true, ambient := true },
      .declare ⟨0⟩ "plus" { ambient := true }, .setSymbolType ⟨1⟩ ⟨1⟩, .setSymbolType ⟨2⟩ ⟨1⟩,
      .reference ⟨1⟩ "add", .reference ⟨2⟩ "plus"])

def exportedAddition : Identifier := { node := ⟨0⟩, text := "add", span := .ofLength 0 3 }

def ownAddition : Identifier := { node := ⟨1⟩, text := "plus", span := .ofLength 4 4 }

theorem exportedAddition_unreported :
    (∃ value after, (additions.lowerRead exportedAddition).outcome {} = (.ok value, after) ∧
      additions.markerOf exportedAddition = some (.operator .addition) ∧
      after.log.entries.count (.located ⟨0⟩ exportedAddition.span .operatorMisuse) ≠ 1) ∧
    ∃ value after, (additions.lowerRead ownAddition).outcome {} = (.ok value, after) ∧
      additions.markerOf ownAddition = some (.operator .addition) ∧
      after.log.entries.count (.located ⟨0⟩ ownAddition.span .operatorMisuse) = 1 := by
  have hbuiltin (identifier : Identifier) : ¬ additions.IsBuiltinValue identifier := by
    intro hvalue
    obtain ⟨symbol, value, _, hvalue⟩ := hvalue
    cases hvalue
  constructor
  · obtain ⟨value, after, hrun⟩ : ∃ value after,
        (additions.lowerRead exportedAddition).outcome {} = (.ok value, after) := ⟨_, _, rfl⟩
    obtain ⟨pushed, hpushed, hcount, _⟩ :=
      lowerRead_reports_marker_iff rfl (by decide) (hbuiltin _) rfl hrun
    have htables : additions.IsReadThroughTables exportedAddition :=
      ⟨⟨1⟩, ⟨["____exports"]⟩, rfl, rfl⟩
    refine ⟨value, after, hrun, rfl, ?_⟩
    rw [hpushed]
    exact fun hone => hcount.mp hone htables
  · obtain ⟨value, after, hrun⟩ : ∃ value after,
        (additions.lowerRead ownAddition).outcome {} = (.ok value, after) := ⟨_, _, rfl⟩
    obtain ⟨pushed, hpushed, hcount, _⟩ :=
      lowerRead_reports_marker_iff rfl (by decide) (hbuiltin _) rfl hrun
    have htables : ¬ additions.IsReadThroughTables ownAddition := by
      intro htables
      obtain ⟨symbol, path, ⟨⟩, hpath⟩ := htables
      cases hpath
    refine ⟨value, after, hrun, rfl, ?_⟩
    rw [hpushed]
    exact hcount.mpr htables

end LuaLowering.Environment
