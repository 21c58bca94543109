import LuaLowering.Options.Config
import LuaLowering.Proofs.Entries
import LuaLowering.Proofs.Options.Acceptance

namespace LuaLowering.Config

/-! What is read from a configuration.  Each option goes by one value, the one at the root if there
is one and the one in the section otherwise, and by nothing else; so the order of the members shows
in the order of the complaints only. -/

/-! One entry. -/

/-- What is reported about an entry. -/
def complaintAbout? (entry : String × Json) : Option Problem :=
  match OptionKey.ofName? entry.1 with
  | none => some (.unknownOption entry.1)
  | some key => key.complaint? entry.2

theorem diagnostics_addEntry (config : Config) (entry : String × Json) :
    (config.addEntry entry).diagnostics =
      config.diagnostics ++ (complaintAbout? entry).toList.map Diagnostic.general := by
  unfold addEntry complaintAbout?
  cases OptionKey.ofName? entry.1 with
  | none => rfl
  | some key =>
      have htakes := key.takes_read entry.2
      simp only
      generalize key.read entry.2 = outcome at htakes ⊢
      generalize key.complaint? entry.2 = problem at htakes ⊢
      generalize key.kind.accept? entry.2 = value at htakes
      cases htakes with
      | unset => exact (List.append_nil _).symm
      | accepted => exact (List.append_nil _).symm
      | refused => rfl

theorem options_addEntry {entry : String × Json} {key : OptionKey}
    (hname : OptionKey.ofName? entry.1 = some key) (config : Config) :
    (config.addEntry entry).options = config.options.settle (key.read entry.2) := by
  unfold addEntry
  simp only [hname]
  rcases key.read entry.2 with problem | setting
  · rfl
  · cases setting with
    | none => rfl
    | some setting => rfl

theorem value_addEntry (config : Config) (entry : String × Json) (key : OptionKey) :
    (config.addEntry entry).options.value key =
      if entry.1 = key.name then (key.kind.accept? entry.2).getD (config.options.value key)
      else config.options.value key := by
  cases hname : OptionKey.ofName? entry.1 with
  | none =>
      have hne : entry.1 ≠ key.name := by
        intro heq
        cases hname.symm.trans (OptionKey.ofName?_eq_some_iff.mpr heq)
      rw [if_neg hne, addEntry, hname]
      rfl
  | some named =>
      have heq : entry.1 = key.name ↔ key = named := by
        rw [OptionKey.ofName?_eq_some_iff.mp hname, OptionKey.name_injective.eq_iff, eq_comm]
      rw [options_addEntry hname, (named.takes_read entry.2).value_settle]
      simp only [heq]
      split
      case isTrue hkey => rw [hkey]
      case isFalse => rfl

/-! All entries. -/

theorem diagnostics_foldl_addEntry (entries : Entries String Json) (config : Config) :
    (entries.foldl addEntry config).diagnostics =
      config.diagnostics ++ (entries.filterMap complaintAbout?).map Diagnostic.general := by
  induction entries generalizing config with
  | nil => exact (List.append_nil _).symm
  | cons entry entries ih =>
      rw [List.foldl_cons, ih, diagnostics_addEntry, List.append_assoc, List.filterMap_cons]
      cases complaintAbout? entry with
      | none => rfl
      | some problem => rfl

theorem value_foldl_addEntry {entries : Entries String Json} (hnodup : entries.keys.Nodup)
    (config : Config) (key : OptionKey) :
    (entries.foldl addEntry config).options.value key =
      ((entries.find? key.name).bind key.kind.accept?).getD (config.options.value key) := by
  induction entries generalizing config with
  | nil => rfl
  | cons entry entries ih =>
      obtain ⟨hname, hrest⟩ := List.nodup_cons.mp hnodup
      rw [List.foldl_cons, ih hrest, value_addEntry, Entries.find?]
      split
      case isTrue heq =>
        have hnone : Entries.find? entries key.name = none := by
          rw [Entries.find?_eq_none_iff, ← heq]
          exact hname
        rw [hnone]
        rfl
      case isFalse => rfl

/-! The entries that count. -/

/-- The members of the section; unless it is an object it has none. -/
def sectionEntries (root : Entries String Json) : Entries String Json :=
  ((root.find? sectionKey).map Json.members).getD []

/-- The value that an option goes by: the one at the root, and only without it the one in the
section. -/
def effective? (root : Entries String Json) (key : OptionKey) : Option Json :=
  match root.find? key.name with
  | some json => some json
  | none => (sectionEntries root).find? key.name

def isOptionName (name : String) : Bool := (OptionKey.ofName? name).isSome

/-- The options at the root that the section does not have. -/
def rootOnly (root : Entries String Json) : List String :=
  root.keys.filter fun name => isOptionName name && name ∉ (sectionEntries root).keys

/-- What is reported under a name: that no option has it, or what is wrong with the value that the
option goes by. -/
def complaintUnder? (root : Entries String Json) (name : String) : Option Problem :=
  match OptionKey.ofName? name with
  | none => some (.unknownOption name)
  | some key => (effective? root key).bind key.complaint?

/-- The warning about options at the root. -/
def warnings (root : Entries String Json) : List Problem :=
  if root.keys.any isOptionName then [.misplacedOptions] else []

/-- All other problems, by the names in the section and then by those at the root only. -/
def complaints (root : Entries String Json) : List Problem :=
  ((sectionEntries root).keys ++ rootOnly root).filterMap (complaintUnder? root)

theorem isMisplaced_eq (entry : String × Json) : isMisplaced entry = isOptionName entry.1 := by
  have hsection : OptionKey.ofName? sectionKey = none := by decide
  by_cases heq : entry.1 = sectionKey
  · simp [isMisplaced, isOptionName, heq, hsection]
  · simp [isMisplaced, isOptionName, heq]

theorem keys_misplaced (root : Entries String Json) :
    Entries.keys (root.filter isMisplaced) = root.keys.filter isOptionName := by
  rw [Entries.keys, Entries.keys, List.filter_map, funext isMisplaced_eq]
  rfl

theorem rootOnly_eq (root : Entries String Json) :
    rootOnly root = (Entries.keys (root.filter isMisplaced)).filter fun name =>
      name ∉ (sectionEntries root).keys := by
  rw [keys_misplaced, List.filter_filter]
  simp only [rootOnly, Bool.and_comm]

section Effective

variable {root : Entries String Json}
  (hroot : (Entries.keys (root.filter isMisplaced)).Nodup)
include hroot

theorem find?_effectiveEntries (key : OptionKey) :
    (effectiveEntries root).find? key.name = effective? root key := by
  have hfold := Entries.find?_foldl_insert_eq hroot (sectionEntries root) key.name
  rw [Entries.find?_filter (isMisplaced_name key)] at hfold
  refine hfold.trans ?_
  unfold effective?
  cases root.find? key.name with
  | none => rfl
  | some json => rfl

theorem keys_effectiveEntries :
    (effectiveEntries root).keys = (sectionEntries root).keys ++ rootOnly root := by
  rw [rootOnly_eq]
  exact Entries.keys_foldl_insert hroot (sectionEntries root)

theorem nodup_keys_effectiveEntries (hsection : (sectionEntries root).keys.Nodup) :
    (effectiveEntries root).keys.Nodup := by
  rw [keys_effectiveEntries hroot, List.nodup_append]
  refine ⟨hsection, ?_, ?_⟩
  · rw [rootOnly_eq]
    exact hroot.filter _
  · rintro name hname _ hother rfl
    have hother := (List.mem_filter.mp hother).2
    simp [hname] at hother

theorem filterMap_effectiveEntries (hsection : (sectionEntries root).keys.Nodup) :
    (effectiveEntries root).filterMap complaintAbout? = complaints root := by
  have hnodup := nodup_keys_effectiveEntries hroot hsection
  rw [complaints, ← keys_effectiveEntries hroot, Entries.keys, List.filterMap_map]
  apply List.filterMap_congr
  rintro ⟨name, json⟩ hmem
  simp only [complaintAbout?, complaintUnder?, Function.comp_apply]
  cases hname : OptionKey.ofName? name with
  | none => rfl
  | some key =>
      rw [OptionKey.ofName?_eq_some_iff] at hname
      subst hname
      have hfind := (Entries.find?_eq_some_iff hnodup).mpr hmem
      rw [find?_effectiveEntries hroot] at hfind
      simp only [hfind, Option.bind_some]

/-! The result. -/

theorem value_ofJson (hsection : (sectionEntries root).keys.Nodup) (key : OptionKey) :
    (ofJson (.obj root)).options.value key =
      ((effective? root key).bind key.kind.accept?).getD (({} : Options).value key) := by
  have hvalue := value_foldl_addEntry (nodup_keys_effectiveEntries hroot hsection)
    (if root.any isMisplaced then report {} .misplacedOptions else {}) key
  rw [find?_effectiveEntries hroot] at hvalue
  refine hvalue.trans ?_
  split
  · rfl
  · rfl

theorem diagnostics_ofJson (hsection : (sectionEntries root).keys.Nodup) :
    (ofJson (.obj root)).diagnostics =
      (warnings root ++ complaints root).map Diagnostic.general := by
  have hstart : (if root.any isMisplaced then report {} .misplacedOptions else {} :
      Config).diagnostics = (warnings root).map Diagnostic.general := by
    have hany : root.any isMisplaced = root.keys.any isOptionName := by
      rw [Entries.keys, List.any_map, funext isMisplaced_eq]
      rfl
    rw [warnings, hany]
    split
    · rfl
    · rfl
  rw [List.map_append, ← hstart, ← filterMap_effectiveEntries hroot hsection]
  exact diagnostics_foldl_addEntry (effectiveEntries root) _

end Effective

/-! Members in another order. -/

/-- The same members beside the section and the same members inside it, in whatever order. -/
structure Reordered (root root' : Entries String Json) : Prop where
  beside : (root.filter fun entry => entry.1 ≠ sectionKey).Perm
    (root'.filter fun entry => entry.1 ≠ sectionKey)
  inside : (sectionEntries root).Perm (sectionEntries root')

namespace Reordered

variable {root root' : Entries String Json} (hreordered : Reordered root root')
include hreordered

theorem misplaced : (root.filter isMisplaced).Perm (root'.filter isMisplaced) := by
  have hbeside (entries : Entries String Json) : entries.filter isMisplaced =
      (entries.filter fun entry => entry.1 ≠ sectionKey).filter isMisplaced := by
    rw [List.filter_filter]
    apply List.filter_congr
    intro entry _
    by_cases heq : entry.1 = sectionKey
    · simp [isMisplaced, heq]
    · simp [isMisplaced, heq]
  rw [hbeside root, hbeside root']
  exact hreordered.beside.filter isMisplaced

theorem mem_keys_section (name : String) :
    name ∈ (sectionEntries root).keys ↔ name ∈ (sectionEntries root').keys :=
  (hreordered.inside.map Prod.fst).mem_iff

theorem rootOnly : (rootOnly root).Perm (rootOnly root') := by
  rw [rootOnly_eq, rootOnly_eq]
  simp only [← hreordered.mem_keys_section]
  exact (hreordered.misplaced.map Prod.fst).filter _

theorem warnings_eq : warnings root = warnings root' := by
  have hmem (name : String) : name ∈ root.keys.filter isOptionName ↔
      name ∈ root'.keys.filter isOptionName := by
    rw [← keys_misplaced, ← keys_misplaced]
    exact (hreordered.misplaced.map Prod.fst).mem_iff
  have hany : root.keys.any isOptionName = root'.keys.any isOptionName := by
    rw [Bool.eq_iff_iff, List.any_eq_true, List.any_eq_true]
    simpa only [List.mem_filter] using exists_congr hmem
  rw [warnings, warnings, hany]

variable (hroot : (Entries.keys (root.filter isMisplaced)).Nodup)
  (hsection : (sectionEntries root).keys.Nodup)
include hroot hsection

theorem effective?_eq (key : OptionKey) : effective? root key = effective? root' key := by
  have hfind : root.find? key.name = root'.find? key.name := by
    calc root.find? key.name
      _ = Entries.find? (root.filter isMisplaced) key.name :=
        (Entries.find?_filter (isMisplaced_name key)).symm
      _ = Entries.find? (root'.filter isMisplaced) key.name :=
        Entries.find?_of_perm hroot hreordered.misplaced key.name
      _ = root'.find? key.name := Entries.find?_filter (isMisplaced_name key)
  rw [effective?, effective?, hfind, Entries.find?_of_perm hsection hreordered.inside]

theorem complaints : (complaints root).Perm (complaints root') := by
  have hunder : complaintUnder? root = complaintUnder? root' := by
    funext name
    simp only [complaintUnder?, hreordered.effective?_eq hroot hsection]
  rw [Config.complaints, Config.complaints, hunder]
  exact ((hreordered.inside.map Prod.fst).append hreordered.rootOnly).filterMap _

end Reordered

/-- Each option has the value that it goes by if that fits, and its default otherwise.  The warning
about the root comes first, then one complaint for each unknown name in the section and each value
that does not fit, in the order of the section and after it of the root.  Members in another order
give the same options, and the same complaints in another order. -/
theorem ofJson_follows_precedence {root : Entries String Json} (hroot : root.keys.Nodup)
    (hsection : (sectionEntries root).keys.Nodup) :
    (∀ key, (ofJson (.obj root)).options.value key =
      ((effective? root key).bind key.kind.accept?).getD (({} : Options).value key)) ∧
    (ofJson (.obj root)).diagnostics =
      (warnings root ++ complaints root).map Diagnostic.general ∧
    ∀ root', Reordered root root' →
      (ofJson (.obj root')).options = (ofJson (.obj root)).options ∧
      (ofJson (.obj root')).diagnostics =
        (warnings root ++ complaints root').map Diagnostic.general ∧
      (complaints root').Perm (complaints root) := by
  have hmisplaced : (Entries.keys (root.filter isMisplaced)).Nodup := by
    rw [keys_misplaced]
    exact hroot.filter _
  refine ⟨value_ofJson hmisplaced hsection, diagnostics_ofJson hmisplaced hsection, ?_⟩
  intro root' hreordered
  have hmisplaced' : (Entries.keys (root'.filter isMisplaced)).Nodup :=
    (hreordered.misplaced.map Prod.fst).nodup_iff.mp hmisplaced
  have hsection' : (sectionEntries root').keys.Nodup :=
    (hreordered.inside.map Prod.fst).nodup_iff.mp hsection
  refine ⟨?_, ?_, (hreordered.complaints hmisplaced hsection).symm⟩
  · apply Options.eq_of_value_eq
    intro key
    rw [value_ofJson hmisplaced' hsection', value_ofJson hmisplaced hsection,
      hreordered.effective?_eq hmisplaced hsection]
  · rw [diagnostics_ofJson hmisplaced' hsection', hreordered.warnings_eq]

/-- Options at the root hide those in the section: a target in other capitals, and a value of the
wrong type. -/
def overriding : Entries String Json :=
  [("noHeader", .int 3),
    (sectionKey, .obj [("header", .null), ("noHeader", .bool true), ("luaTarget", .str "5.3")]),
    ("luaTarget", .str "jit")]

def overridingReversed : Entries String Json :=
  [("luaTarget", .str "jit"),
    (sectionKey, .obj [("luaTarget", .str "5.3"), ("noHeader", .bool true), ("header", .null)]),
    ("noHeader", .int 3)]

theorem ofJson_follows_precedence_overriding :
    overriding.keys.Nodup ∧ (sectionEntries overriding).keys.Nodup ∧
    Reordered overriding overridingReversed ∧
    (ofJson (.obj overriding)).options.value .luaTarget = .str "JIT" ∧
    (ofJson (.obj overriding)).options.value .noHeader = .bool false ∧
    (ofJson (.obj overriding)).diagnostics =
      [.general .misplacedOptions, .general (.unknownOption "header"),
        .general (.wrongOptionType "noHeader" "boolean")] ∧
    (ofJson (.obj overridingReversed)).options = (ofJson (.obj overriding)).options ∧
    (ofJson (.obj overridingReversed)).diagnostics =
      [.general .misplacedOptions, .general (.wrongOptionType "noHeader" "boolean"),
        .general (.unknownOption "header")] := by
  have hroot : overriding.keys.Nodup := by decide
  have hsection : (sectionEntries overriding).keys.Nodup := by decide
  have hreordered : Reordered overriding overridingReversed :=
    ⟨(List.reverse_perm _).symm, (List.reverse_perm _).symm⟩
  obtain ⟨hvalue, hdiagnostics, hothers⟩ := ofJson_follows_precedence hroot hsection
  obtain ⟨hoptions, hdiagnostics', _⟩ := hothers overridingReversed hreordered
  exact ⟨hroot, hsection, hreordered, hvalue .luaTarget, hvalue .noHeader, hdiagnostics, hoptions,
    hdiagnostics'⟩

end LuaLowering.Config
