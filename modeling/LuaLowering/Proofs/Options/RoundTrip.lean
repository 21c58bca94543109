import LuaLowering.Options.Config
import LuaLowering.Proofs.Entries
import LuaLowering.Proofs.Options.Setting

namespace LuaLowering

/-! Options that are written as JSON and read again. -/

namespace Config

/-- A value that reads back becomes the value of its option, and no other option changes. -/
theorem addEntry_of_readsBack {config : Config} {key : OptionKey} {json : Json}
    (hreads : key.ReadsBack json)
    (hunset : config.options.value key = ({} : Options).value key) :
    ∃ options, config.addEntry (key.name, json) = { config with options := options } ∧
      ∀ other, options.value other = if other = key then json else config.options.value other := by
  simp only [addEntry, OptionKey.ofName?_name]
  cases hreads with
  | unset hdefault =>
      refine ⟨config.options, rfl, ?_⟩
      intro other
      split
      case isTrue hother => rw [hother, hunset, hdefault]
      case isFalse => rfl
  | @setting _ setting hread hkey hvalue =>
      refine ⟨config.options.set setting, ?_, ?_⟩
      · rw [hread]
      · intro other
        rw [Options.value_set, hkey, hvalue]

/-- What the reader sees of some options when they are written. -/
def written (options : Options) (keys : List OptionKey) : Entries String Json :=
  keys.map fun key => (key.name, options.value key)

theorem foldl_addEntry_written (options : Options) {keys : List OptionKey} (hnodup : keys.Nodup)
    {config : Config}
    (hunset : ∀ key ∈ keys, config.options.value key = ({} : Options).value key) :
    ∃ result, (written options keys).foldl addEntry config = { config with options := result } ∧
      ∀ other, result.value other =
        if other ∈ keys then options.value other else config.options.value other := by
  induction keys generalizing config with
  | nil => exact ⟨config.options, rfl, fun other => by simp⟩
  | cons key keys ih =>
      obtain ⟨hkey, hrest⟩ := List.nodup_cons.mp hnodup
      obtain ⟨next, hnext, hvalue⟩ :=
        addEntry_of_readsBack (options.readsBack_value key) (hunset key List.mem_cons_self)
      have hunset' : ∀ other ∈ keys,
          { config with options := next }.options.value other = ({} : Options).value other := by
        intro other hmem
        have hne : other ≠ key := by
          rintro rfl
          exact hkey hmem
        rw [hvalue, if_neg hne, hunset other (List.mem_cons_of_mem key hmem)]
      obtain ⟨result, hresult, hvalues⟩ := ih hrest hunset'
      refine ⟨result, ?_, ?_⟩
      · rw [written, List.map_cons, List.foldl_cons, hnext]
        exact hresult
      · intro other
        by_cases hmem : other ∈ keys
        · rw [hvalues, if_pos hmem, if_pos (List.mem_cons_of_mem key hmem)]
        · rw [hvalues, if_neg hmem, hvalue]
          simp only [List.mem_cons, hmem, or_false]
          split
          case isTrue hother => rw [hother]
          case isFalse => rfl

theorem foldl_addEntry_all (options : Options) (diagnostics : List Diagnostic) :
    (written options OptionKey.all).foldl addEntry { diagnostics := diagnostics } =
      { options := options, diagnostics := diagnostics } := by
  have hnodup : OptionKey.all.Nodup := by decide
  obtain ⟨result, hresult, hvalues⟩ :=
    foldl_addEntry_written options hnodup (fun key _ => rfl :
      ∀ key ∈ OptionKey.all, { diagnostics := diagnostics : Config }.options.value key = _)
  have hoptions : result = options := by
    apply Options.eq_of_value_eq
    intro key
    rw [hvalues, if_pos key.mem_all]
  rw [hresult, hoptions]

/-! The two places where options may be written. -/

theorem find?_sectionKey_written (options : Options) (keys : List OptionKey) :
    Entries.find? (written options keys) sectionKey = none := by
  induction keys with
  | nil => rfl
  | cons key keys ih =>
      rw [written, List.map_cons, Entries.find?, if_neg (name_ne_sectionKey key)]
      exact ih

theorem effectiveEntries_section (options : Options) :
    effectiveEntries [(sectionKey, options.toJson)] = written options OptionKey.all := rfl

theorem effectiveEntries_root (options : Options) :
    effectiveEntries (written options OptionKey.all) = written options OptionKey.all := by
  have hmisplaced : (written options OptionKey.all).filter isMisplaced =
      written options OptionKey.all := by
    apply List.filter_eq_self.mpr
    intro entry hmem
    obtain ⟨key, _, rfl⟩ := List.mem_map.mp hmem
    exact isMisplaced_name key _
  have hnodup : (Entries.keys ([] ++ written options OptionKey.all)).Nodup := by
    have hnames : (OptionKey.all.map OptionKey.name).Nodup :=
      List.Nodup.map OptionKey.name_injective (by decide)
    rw [List.nil_append, Entries.keys, written, List.map_map]
    exact hnames
  rw [effectiveEntries, find?_sectionKey_written, hmisplaced]
  exact Entries.foldl_insert_of_nodup hnodup

/-- Options, wherever they come from, are read as they were written: from the section without any
complaint, and from the root with a warning that they are out of place. -/
theorem ofJson_toJson (options : Options) :
    ofJson (.obj [(sectionKey, options.toJson)]) = { options := options, diagnostics := [] } ∧
    ofJson options.toJson =
      { options := options, diagnostics := [.general .misplacedOptions] } := by
  constructor
  · have hplaced : [(sectionKey, options.toJson)].any isMisplaced = false := rfl
    simp only [ofJson, Json.members, hplaced]
    rw [effectiveEntries_section]
    exact foldl_addEntry_all options []
  · have hmembers : options.toJson.members = written options OptionKey.all := rfl
    have hmisplaced : (written options OptionKey.all).any isMisplaced = true := rfl
    simp only [ofJson, hmembers, hmisplaced]
    rw [effectiveEntries_root]
    exact foldl_addEntry_all options [.general .misplacedOptions]

end Config

end LuaLowering
