import LuaLowering.Polyfill.Prelude
import LuaLowering.Proofs.Polyfill.Assembly
import Mathlib.Data.List.Lattice
import Mathlib.Data.List.Nodup
import Mathlib.Data.List.Pairwise

namespace LuaLowering

/-! Text line by line. -/

theorem unlines_append (lines more : List String) :
    unlines (lines ++ more) = unlines lines ++ unlines more := by
  rw [unlines, List.map_append, String.join_append]
  rfl

theorem unlines_singleton (line : String) : unlines [line] = line ++ "\n" := by
  simp [unlines]

theorem takeWhile_unlines_cons {line : String} (hline : '\n' ∉ line.toList) (lines : List String) :
    (unlines (line :: lines)).toList.takeWhile (fun c => c ≠ '\n') = line.toList := by
  have hkept : ∀ c ∈ line.toList, decide (c ≠ '\n') = true := by
    intro c hmem
    apply decide_eq_true
    rintro rfl
    exact hline hmem
  rw [← List.singleton_append, unlines_append, unlines_singleton, String.append_assoc,
    String.toList_append, List.takeWhile_append_of_pos hkept, String.toList_append]
  exact List.append_nil _

theorem exists_unlines_eq {lines : List String} (hlines : lines ≠ []) :
    ∃ text, unlines lines = text ++ "\n" := by
  refine ⟨unlines lines.dropLast ++ lines.getLast hlines, ?_⟩
  rw [String.append_assoc, ← unlines_singleton, ← unlines_append, List.dropLast_append_getLast]

namespace Feature

theorem mem_all (feature : Feature) : feature ∈ all := by
  cases feature <;> decide

theorem body_ne_nil (feature : Feature) : feature.body ≠ [] := by
  cases feature <;> exact List.cons_ne_nil _ _

theorem exists_text_eq (feature : Feature) : ∃ code, feature.text = code ++ "\n" :=
  exists_unlines_eq feature.body_ne_nil

/-! Features are told apart by the lines that their code begins with. -/

def firstLine (feature : Feature) : String := feature.body.head feature.body_ne_nil

theorem newline_not_mem_firstLine (feature : Feature) : '\n' ∉ feature.firstLine.toList := by
  cases feature <;> decide +kernel

theorem nodup_firstLine : (all.map firstLine).Nodup := by
  decide +kernel

theorem takeWhile_text (feature : Feature) :
    feature.text.toList.takeWhile (fun c => c ≠ '\n') = feature.firstLine.toList := by
  rw [text, ← List.cons_head_tail feature.body_ne_nil]
  exact takeWhile_unlines_cons feature.newline_not_mem_firstLine _

theorem text_injective : Function.Injective text := by
  intro feature other htext
  have hfirst : feature.firstLine = other.firstLine := by
    apply String.toList_injective
    rw [← takeWhile_text, htext, takeWhile_text]
  exact List.inj_on_of_nodup_map nodup_firstLine (mem_all feature) (mem_all other) hfirst

theorem nodup_exports_all : (all.flatMap exports).Nodup := by
  decide

theorem nodup_exports (feature : Feature) : feature.exports.Nodup :=
  (List.nodup_flatMap.mp nodup_exports_all).1 feature (mem_all feature)

theorem disjoint_exports {feature other : Feature} (hne : feature ≠ other) :
    feature.exports.Disjoint other.exports := by
  have hsymm : Std.Symm (Function.onFun List.Disjoint exports) :=
    ⟨fun _ _ hdisjoint => List.Disjoint.symm hdisjoint⟩
  have hpairwise := (List.nodup_flatMap.mp nodup_exports_all).2
  exact hpairwise.forall (mem_all feature) (mem_all other) hne

end Feature

namespace Prelude

/-- The code of a feature, closed by a newline, and a blank line. -/
def blockText (feature : Feature) : String := feature.text ++ "\n"

theorem blockText_injective : Function.Injective blockText := by
  intro feature other hblock
  exact Feature.text_injective ((String.append_left_inj "\n").mp hblock)

/-- Whatever the text is that the code is added to, the code closes its last line itself. -/
theorem closeLine_append_text (before : String) (feature : Feature) :
    closeLine (before ++ feature.text) = before ++ feature.text := by
  obtain ⟨code, hcode⟩ := feature.exists_text_eq
  have hends : (before ++ feature.text).endsWith '\n' = true := by
    rw [hcode, ← String.append_assoc]
    exact String.endsWith_char_iff_exists_append.mpr ⟨before ++ code, rfl⟩
  rw [closeLine, if_pos hends]

theorem addBlock_eq (before : String) (feature : Feature) :
    addBlock before feature = before ++ blockText feature := by
  rw [addBlock, closeLine_append_text, String.append_assoc]
  rfl

theorem foldl_addBlock (before : String) (features : List Feature) :
    features.foldl addBlock before = before ++ String.join (features.map blockText) := by
  induction features generalizing before with
  | nil => exact String.append_empty.symm
  | cons feature features ih =>
      rw [List.foldl_cons, ih, addBlock_eq, List.map_cons, String.join_cons, String.append_assoc]

theorem text_inline (set : FeatureSet) :
    text .inline set = String.join (set.features.map blockText) := by
  rw [text, inlineText, foldl_addBlock, String.empty_append]

theorem text_inline_of_split {set : FeatureSet} {before behind : List Feature} {feature : Feature}
    (hfeatures : set.features = before ++ feature :: behind) :
    text .inline set =
      String.join (before.map blockText) ++ blockText feature ++
        String.join (behind.map blockText) := by
  rw [text_inline, hfeatures, List.map_append, List.map_cons, String.join_append, String.join_cons,
    String.append_assoc]

theorem text_inline_merge {set other : FeatureSet} (hother : other.Ordered) :
    text .inline (set.merge other) =
      text .inline set ++
        String.join
          ((other.features.filter fun feature => feature ∉ set.features).map blockText) := by
  rw [text_inline, text_inline, FeatureSet.features_merge hother, List.map_append,
    String.join_append]

theorem text_require {set : FeatureSet} (hset : set.features ≠ []) :
    text .require set =
      "local ____lualib = require(\"lualib_bundle\")\n" ++
        String.join ((exportedNames set).map fun name =>
          "local " ++ name ++ " = ____lualib." ++ name ++ "\n") := by
  have hempty : set.isEmpty = false := by simpa [FeatureSet.isEmpty] using hset
  rw [text, hempty]
  simp only [Bool.false_eq_true, if_false, requireText, unlines, List.map_cons, String.join_cons,
    List.map_map]
  rfl

theorem nodup_exportedNames {set : FeatureSet} (hnodup : set.features.Nodup) :
    (exportedNames set).Nodup := by
  refine List.nodup_flatMap.mpr ⟨fun feature _ => feature.nodup_exports, ?_⟩
  exact hnodup.pairwise_of_forall_ne fun _ _ _ _ hne => Feature.disjoint_exports hne

end Prelude

namespace FeatureSet.Assembly

/-- The code that is put in line holds one block for each feature, after the blocks of all that the
feature depends on; merging puts the blocks of the missing features at the end.  Where the library
is required, every name of every feature that is needed is bound, each by one line. -/
theorem preludes_follow_set (assembly other : Assembly) :
    (Prelude.text .inline assembly.set =
        String.join (assembly.set.features.map Prelude.blockText) ∧
      (assembly.set.features.map Prelude.blockText).Nodup ∧
      ∀ feature ∈ assembly.set.features,
        (∃ code, feature.text = code ++ "\n") ∧
        ∃ before behind, assembly.set.features = before ++ feature :: behind ∧
          feature ∉ before ∧ feature ∉ behind ∧
          (∀ dependency ∈ feature.dependencies, dependency ∈ before) ∧
          Prelude.text .inline assembly.set =
            String.join (before.map Prelude.blockText) ++ Prelude.blockText feature ++
              String.join (behind.map Prelude.blockText)) ∧
    Prelude.text .inline (assembly.set.merge other.set) =
      Prelude.text .inline assembly.set ++
        String.join ((other.set.features.filter fun feature =>
          feature ∉ assembly.set.features).map Prelude.blockText) ∧
    (assembly.set.features ≠ [] →
      ∃ names : List String,
        Prelude.text .require assembly.set =
          "local ____lualib = require(\"lualib_bundle\")\n" ++
            String.join (names.map fun name =>
              "local " ++ name ++ " = ____lualib." ++ name ++ "\n") ∧
        names.Nodup ∧
        (∀ name, name ∈ names ↔ ∃ feature ∈ assembly.set.features, name ∈ feature.exports) ∧
        ∀ feature ∈ assembly.set.features, ∀ needed, feature.Needs needed →
          ∀ name ∈ needed.exports, name ∈ names) := by
  have hordered := assembly.ordered_set
  refine ⟨⟨Prelude.text_inline _, hordered.nodup.map Prelude.blockText_injective, ?_⟩,
    Prelude.text_inline_merge other.ordered_set, ?_⟩
  · intro feature hmem
    refine ⟨feature.exists_text_eq, ?_⟩
    obtain ⟨before, behind, hfeatures⟩ := List.append_of_mem hmem
    have hnodup := hordered.nodup
    rw [hfeatures, List.nodup_middle, List.nodup_cons, List.mem_append, not_or] at hnodup
    exact ⟨before, behind, hfeatures, hnodup.1.1, hnodup.1.2,
      hordered.dependencies_before before feature behind hfeatures,
      Prelude.text_inline_of_split hfeatures⟩
  · intro hset
    refine ⟨Prelude.exportedNames assembly.set, Prelude.text_require hset,
      Prelude.nodup_exportedNames hordered.nodup, fun name => List.mem_flatMap, ?_⟩
    intro feature hmem needed hneeds name hname
    exact List.mem_flatMap.mpr ⟨needed, hordered.closed hmem hneeds, hname⟩

end FeatureSet.Assembly

end LuaLowering
