import LuaLowering.Polyfill.FeatureSet
import Mathlib.Data.List.Basic
import Mathlib.Data.List.Induction
import Mathlib.Data.List.Nodup
import Mathlib.Logic.Relation

namespace LuaLowering

/-! What a feature needs, directly or through others. -/

namespace Feature

def DependsOn (feature dependency : Feature) : Prop := dependency ∈ feature.dependencies

/-- What holds of a feature once it holds of its dependencies holds of all features. -/
@[elab_as_elim]
theorem induction_on_dependencies {motive : Feature → Prop}
    (step : ∀ feature, (∀ dependency ∈ feature.dependencies, motive dependency) → motive feature)
    (feature : Feature) : motive feature := by
  induction hdepth : feature.depth using Nat.strongRecOn generalizing feature with
  | ind depth ih =>
      subst hdepth
      apply step
      intro dependency hdependency
      exact ih _ (depth_lt_of_mem_dependencies hdependency) dependency rfl

def Needs : Feature → Feature → Prop := Relation.ReflTransGen DependsOn

theorem needs_iff (feature needed : Feature) :
    feature.Needs needed ↔
      (∃ dependency ∈ feature.dependencies, dependency.Needs needed) ∨ needed = feature := by
  rw [Needs, Relation.ReflTransGen.cases_head_iff, or_comm, eq_comm]
  rfl

theorem depth_le_of_needs {feature needed : Feature} (hneeds : feature.Needs needed) :
    needed.depth ≤ feature.depth := by
  induction hneeds with
  | refl => exact Nat.le_refl _
  | tail _ hdepends ih =>
      have hlt := depth_lt_of_mem_dependencies hdepends
      omega

/-- The features with a name: one or none. -/
def named (id : String) : List Feature := all.filter fun feature => feature.id = id

theorem named_id (feature : Feature) : named feature.id = [feature] := by
  cases feature <;> rfl

theorem ofId_id (feature : Feature) : ofId feature.id = .ok feature := by
  cases feature <;> rfl

theorem ofId_eq_error {id : String} (hunknown : ∀ feature : Feature, feature.id ≠ id) :
    ofId id = .error (.unknownFeature id) := by
  have hnone : all.find? (fun feature => feature.id = id) = none := by
    rw [List.find?_eq_none]
    intro feature _ hid
    exact hunknown feature (of_decide_eq_true hid)
  rw [ofId, hnone]

end Feature

namespace FeatureSet

section Order

variable {set other result : FeatureSet} {feature : Feature}

@[ext] theorem ext (hfeatures : set.features = other.features) : set = other := by
  cases set
  cases other
  exact congrArg FeatureSet.mk hfeatures

@[simp] theorem contains_iff : set.contains feature = true ↔ feature ∈ set.features :=
  List.contains_iff_mem

theorem insert_of_mem (hmem : feature ∈ set.features) : set.insert feature = set := by
  rw [insert_eq, if_pos (contains_iff.mpr hmem)]

theorem insert_of_not_mem (hmem : feature ∉ set.features) :
    set.insert feature = ⟨(set.extend feature.dependencies).features ++ [feature]⟩ := by
  rw [insert_eq, if_neg fun hcontains => hmem (contains_iff.mp hcontains)]
  rfl

theorem extend_append (set : FeatureSet) (features more : List Feature) :
    set.extend (features ++ more) = (set.extend features).extend more :=
  List.foldl_append

theorem extend_of_subset {features : List Feature} (hsubset : features ⊆ set.features) :
    set.extend features = set := by
  induction features with
  | nil => rfl
  | cons feature features ih =>
      obtain ⟨hmem, hrest⟩ := List.cons_subset.mp hsubset
      rw [extend, List.foldl_cons, insert_of_mem hmem]
      exact ih hrest

/-! Inserting adds at the end only. -/

theorem isPrefix_extend_of {features : List Feature}
    (hinsert : ∀ feature ∈ features, ∀ set : FeatureSet,
      set.features <+: (set.insert feature).features) (set : FeatureSet) :
    set.features <+: (set.extend features).features := by
  refine List.foldlRecOn (motive := fun later => set.features <+: later.features) features insert
    List.prefix_rfl ?_
  intro later hprefix feature hmem
  exact hprefix.trans (hinsert feature hmem later)

theorem isPrefix_insert (set : FeatureSet) (feature : Feature) :
    set.features <+: (set.insert feature).features := by
  induction feature using Feature.induction_on_dependencies generalizing set with
  | step feature ih =>
      by_cases hmem : feature ∈ set.features
      · exact ⟨[], by rw [List.append_nil, insert_of_mem hmem]⟩
      · have hdependencies : set.features <+: (set.extend feature.dependencies).features :=
          isPrefix_extend_of ih set
        rw [insert_of_not_mem hmem]
        exact hdependencies.trans (List.prefix_append _ _)

theorem isPrefix_extend (set : FeatureSet) (features : List Feature) :
    set.features <+: (set.extend features).features :=
  isPrefix_extend_of (fun feature _ set => set.isPrefix_insert feature) set

/-! A set is in order if no feature stands twice or before one of its dependencies. -/

structure Ordered (set : FeatureSet) : Prop where
  nodup : set.features.Nodup
  dependencies_before : ∀ before feature behind,
    set.features = before ++ feature :: behind → feature.dependencies ⊆ before

theorem ordered_empty : empty.Ordered where
  nodup := List.nodup_nil
  dependencies_before := by
    intro before feature behind hfeatures
    cases before <;> cases hfeatures

namespace Ordered

theorem closed (hordered : set.Ordered) (hmem : feature ∈ set.features) {needed : Feature}
    (hneeds : feature.Needs needed) : needed ∈ set.features := by
  induction hneeds with
  | refl => exact hmem
  | tail _ hdepends ih =>
      obtain ⟨before, behind, hfeatures⟩ := List.append_of_mem ih
      have hbefore := hordered.dependencies_before before _ behind hfeatures hdepends
      rw [hfeatures]
      exact List.mem_append_left _ hbefore

theorem concat (hordered : set.Ordered) (hmem : feature ∉ set.features)
    (hdependencies : feature.dependencies ⊆ set.features) :
    Ordered ⟨set.features ++ [feature]⟩ where
  nodup := by
    rw [← List.concat_eq_append, List.nodup_concat]
    exact ⟨hmem, hordered.nodup⟩
  dependencies_before := by
    intro before last behind hfeatures
    -- The last place holds the new feature; any other place is one of the old set.
    cases behind using List.reverseRecOn with
    | nil =>
        obtain ⟨rfl, hlast⟩ := List.append_inj' hfeatures rfl
        obtain rfl := List.singleton_inj.mp hlast
        exact hdependencies
    | append_singleton behind other =>
        rw [← List.cons_append, ← List.append_assoc] at hfeatures
        obtain ⟨hfront, _⟩ := List.append_inj' hfeatures rfl
        exact hordered.dependencies_before before last behind hfront

theorem of_concat {features : List Feature} (hordered : Ordered ⟨features ++ [feature]⟩) :
    Ordered ⟨features⟩ where
  nodup := (List.nodup_append.mp hordered.nodup).1
  dependencies_before := by
    intro before other behind hfeatures
    apply hordered.dependencies_before before other (behind ++ [feature])
    simp only at hfeatures
    rw [hfeatures, List.append_assoc, List.cons_append]

end Ordered

/-! Inserting keeps the order and adds what the inserted features need, no more. -/

structure GrowsBy (set : FeatureSet) (requested : List Feature) (result : FeatureSet) : Prop where
  ordered : result.Ordered
  isPrefix : set.features <+: result.features
  mem_iff : ∀ feature, feature ∈ result.features ↔
    feature ∈ set.features ∨ ∃ request ∈ requested, request.Needs feature

namespace GrowsBy

theorem refl (hordered : set.Ordered) : set.GrowsBy [] set where
  ordered := hordered
  isPrefix := List.prefix_rfl
  mem_iff := by simp

theorem trans {first second third : FeatureSet} {requested more : List Feature}
    (hfirst : first.GrowsBy requested second) (hsecond : second.GrowsBy more third) :
    first.GrowsBy (requested ++ more) third where
  ordered := hsecond.ordered
  isPrefix := hfirst.isPrefix.trans hsecond.isPrefix
  mem_iff := by
    intro feature
    rw [hsecond.mem_iff, hfirst.mem_iff]
    simp only [List.mem_append, or_and_right, exists_or, or_assoc]

theorem congr {requested others : List Feature} (hgrows : set.GrowsBy requested result)
    (hneeds : ∀ feature, (∃ request ∈ requested, request.Needs feature) ↔
      ∃ request ∈ others, request.Needs feature) : set.GrowsBy others result where
  ordered := hgrows.ordered
  isPrefix := hgrows.isPrefix
  mem_iff := by
    intro feature
    rw [hgrows.mem_iff, hneeds]

theorem requested_subset {requested : List Feature} (hgrows : set.GrowsBy requested result) :
    requested ⊆ result.features := by
  intro request hrequest
  exact (hgrows.mem_iff request).mpr (Or.inr ⟨request, hrequest, .refl⟩)

/-- A feature does not come in with what it depends on. -/
theorem not_mem_of_dependencies (hgrows : set.GrowsBy feature.dependencies result)
    (hmem : feature ∉ set.features) : feature ∉ result.features := by
  rw [hgrows.mem_iff]
  rintro (hold | ⟨dependency, hdependency, hneeds⟩)
  · exact hmem hold
  · have hlt := Feature.depth_lt_of_mem_dependencies hdependency
    have hle := Feature.depth_le_of_needs hneeds
    omega

theorem extend {features : List Feature} (hordered : set.Ordered)
    (hinsert : ∀ feature ∈ features, ∀ set : FeatureSet, set.Ordered →
      set.GrowsBy [feature] (set.insert feature)) : set.GrowsBy features (set.extend features) := by
  induction features generalizing set with
  | nil => exact refl hordered
  | cons feature features ih =>
      have hfirst := hinsert feature List.mem_cons_self set hordered
      refine hfirst.trans (ih hfirst.ordered ?_)
      intro other hmem
      exact hinsert other (List.mem_cons_of_mem feature hmem)

end GrowsBy

theorem growsBy_insert (hordered : set.Ordered) (feature : Feature) :
    set.GrowsBy [feature] (set.insert feature) := by
  induction feature using Feature.induction_on_dependencies generalizing set with
  | step feature ih =>
      have hprefix := set.isPrefix_insert feature
      by_cases hmem : feature ∈ set.features
      · rw [insert_of_mem hmem] at hprefix ⊢
        refine ⟨hordered, hprefix, ?_⟩
        intro needed
        simp only [List.mem_singleton, exists_eq_left, iff_self_or]
        exact hordered.closed hmem
      · rw [insert_of_not_mem hmem] at hprefix ⊢
        have hgrows : set.GrowsBy feature.dependencies (set.extend feature.dependencies) := by
          refine .extend hordered ?_
          intro dependency hdependency set hordered
          exact ih dependency hdependency hordered
        have hfresh := hgrows.not_mem_of_dependencies hmem
        have hdependencies := hgrows.requested_subset
        refine ⟨hgrows.ordered.concat hfresh hdependencies, hprefix, ?_⟩
        intro needed
        simp only [List.mem_append, hgrows.mem_iff, List.mem_singleton, exists_eq_left]
        rw [feature.needs_iff needed, or_assoc]

theorem growsBy_extend (hordered : set.Ordered) (features : List Feature) :
    set.GrowsBy features (set.extend features) :=
  .extend hordered fun feature _ _ hordered => growsBy_insert hordered feature

theorem growsBy_insertById (hordered : set.Ordered) (id : String) :
    set.GrowsBy (Feature.named id) (set.insertById id).2 := by
  by_cases hknown : ∃ feature : Feature, feature.id = id
  · obtain ⟨feature, rfl⟩ := hknown
    rw [insertById, feature.ofId_id, feature.named_id]
    exact growsBy_insert hordered feature
  · have hunknown : ∀ feature : Feature, feature.id ≠ id := fun feature hid => hknown ⟨feature, hid⟩
    have hnone : Feature.named id = [] := by simp [Feature.named, hunknown]
    rw [insertById, Feature.ofId_eq_error hunknown, hnone]
    exact .refl hordered

theorem growsBy_merge {requested : List Feature} (hordered : set.Ordered)
    (hother : empty.GrowsBy requested other) : set.GrowsBy requested (set.merge other) := by
  refine (growsBy_extend hordered other.features).congr ?_
  intro feature
  -- A set in order holds all that its features need.
  constructor
  · rintro ⟨request, hmem, hneeds⟩
    exact ((hother.mem_iff feature).mp (hother.ordered.closed hmem hneeds)).resolve_left
      List.not_mem_nil
  · intro hneeds
    exact ⟨feature, (hother.mem_iff feature).mpr (Or.inr hneeds), .refl⟩

/-! Merging goes by the order of the other set: its features find their dependencies in place. -/

theorem features_merge (hother : other.Ordered) :
    (set.merge other).features =
      set.features ++ other.features.filter fun feature => feature ∉ set.features := by
  obtain ⟨features⟩ := other
  change (set.extend features).features = _
  induction features using List.reverseRecOn with
  | nil => exact (List.append_nil _).symm
  | append_singleton features feature ih =>
      have hfront := ih hother.of_concat
      have hfresh : feature ∉ features := by
        have hnodup := hother.nodup
        rw [← List.concat_eq_append, List.nodup_concat] at hnodup
        exact hnodup.1
      rw [extend_append]
      change ((set.extend features).insert feature).features = _
      rw [List.filter_append]
      by_cases hmem : feature ∈ set.features
      · have hkept : feature ∈ (set.extend features).features := by
          rw [hfront]
          exact List.mem_append_left _ hmem
        rw [insert_of_mem hkept, hfront]
        simp [hmem]
      · have hnew : feature ∉ (set.extend features).features := by
          rw [hfront]
          simp [hmem, hfresh]
        have hdependencies : feature.dependencies ⊆ (set.extend features).features := by
          intro dependency hdependency
          have hbefore := hother.dependencies_before features feature [] rfl hdependency
          rw [hfront]
          by_cases hold : dependency ∈ set.features <;> simp [hold, hbefore]
        rw [insert_of_not_mem hnew, extend_of_subset hdependencies, hfront]
        simp [hmem]

theorem merge_assoc {third : FeatureSet} (hother : other.Ordered) (hthird : third.Ordered) :
    (set.merge other).merge third = set.merge (other.merge third) := by
  have hboth : (other.merge third).Ordered := (growsBy_extend hother third.features).ordered
  apply FeatureSet.ext
  rw [features_merge hthird, features_merge hboth, features_merge hthird, features_merge hother,
    List.filter_append, List.filter_filter, List.append_assoc]
  congr 2
  apply List.filter_congr
  intro feature _
  by_cases hset : feature ∈ set.features <;> simp [hset]

/-! What is inserted after a merge could as well have been inserted before it. -/

theorem insert_extend_dependencies (hordered : set.Ordered) (feature : Feature) :
    (set.extend feature.dependencies).insert feature = set.insert feature := by
  by_cases hmem : feature ∈ set.features
  · have hdependencies : feature.dependencies ⊆ set.features := by
      intro dependency hdependency
      exact hordered.closed hmem (.single hdependency)
    rw [extend_of_subset hdependencies]
  · have hgrows := growsBy_extend hordered feature.dependencies
    rw [insert_of_not_mem (hgrows.not_mem_of_dependencies hmem), insert_of_not_mem hmem,
      extend_of_subset hgrows.requested_subset]

theorem merge_insert (hset : set.Ordered) (hother : other.Ordered) (feature : Feature) :
    (set.merge other).insert feature = set.merge (other.insert feature) := by
  induction feature using Feature.induction_on_dependencies generalizing other with
  | step feature ih =>
      have hmerged : (set.merge other).Ordered := (growsBy_extend hset other.features).ordered
      by_cases hmem : feature ∈ other.features
      · have hboth := (growsBy_extend hset other.features).requested_subset hmem
        rw [insert_of_mem hmem]
        exact insert_of_mem hboth
      · have hdependencies : (set.merge other).extend feature.dependencies =
            set.merge (other.extend feature.dependencies) := by
          refine (List.foldl_rel (r := fun merged other : FeatureSet =>
            merged = set.merge other ∧ other.Ordered) ⟨rfl, hother⟩ ?_).1
          rintro dependency hdependency _ other ⟨rfl, hother⟩
          exact ⟨ih dependency hdependency hother, (growsBy_insert hother dependency).ordered⟩
        rw [← insert_extend_dependencies hmerged, hdependencies, insert_of_not_mem hmem]
        exact (extend_append set (other.extend feature.dependencies).features [feature]).symm

theorem merge_self (set : FeatureSet) : set.merge set = set :=
  extend_of_subset (List.Subset.refl _)

theorem empty_merge (hordered : set.Ordered) : empty.merge set = set := by
  apply FeatureSet.ext
  rw [features_merge hordered]
  simp [empty]

theorem perm_merge (hset : set.Ordered) (hother : other.Ordered) :
    (set.merge other).features.Perm (other.merge set).features := by
  have hnodup := (growsBy_extend hset other.features).ordered.nodup
  have hnodup' := (growsBy_extend hother set.features).ordered.nodup
  apply (List.perm_ext_iff_of_nodup hnodup hnodup').mpr
  intro feature
  change feature ∈ (set.merge other).features ↔ feature ∈ (other.merge set).features
  rw [features_merge hset, features_merge hother]
  by_cases hmem : feature ∈ set.features <;> by_cases hmem' : feature ∈ other.features <;>
    simp [hmem, hmem']

end Order

/-! Sets that operations lead to. -/

/-- A set, as it is put together from the empty one. -/
inductive Assembly where
  | empty
  | insert (base : Assembly) (feature : Feature)
  | insertById (base : Assembly) (id : String)
  | extend (base : Assembly) (features : List Feature)
  | collect (features : List Feature)
  | merge (base other : Assembly)

namespace Assembly

def set : Assembly → FeatureSet
  | empty => .empty
  | insert base feature => (base.set.insertIfNew feature).2
  | insertById base id => (base.set.insertById id).2
  | extend base features => base.set.extend features
  | collect features => .ofList features
  | merge base other => base.set.merge other.set

/-- The features that were asked for.  An unknown name asks for none. -/
def requested : Assembly → List Feature
  | empty => []
  | insert base feature => base.requested ++ [feature]
  | insertById base id => base.requested ++ Feature.named id
  | extend base features => base.requested ++ features
  | collect features => features
  | merge base other => base.requested ++ other.requested

theorem growsBy_set (assembly : Assembly) :
    FeatureSet.empty.GrowsBy assembly.requested assembly.set := by
  induction assembly with
  | empty => exact .refl ordered_empty
  | insert base feature ih => exact ih.trans (growsBy_insert ih.ordered feature)
  | insertById base id ih => exact ih.trans (growsBy_insertById ih.ordered id)
  | extend base features ih => exact ih.trans (growsBy_extend ih.ordered features)
  | collect features => exact growsBy_extend ordered_empty features
  | merge base other hbase hother => exact hbase.trans (growsBy_merge hbase.ordered hother)

theorem ordered_set (assembly : Assembly) : assembly.set.Ordered := assembly.growsBy_set.ordered

theorem mem_set_iff (assembly : Assembly) (feature : Feature) :
    feature ∈ assembly.set.features ↔
      ∃ request ∈ assembly.requested, request.Needs feature := by
  rw [assembly.growsBy_set.mem_iff]
  exact or_iff_right List.not_mem_nil

theorem perm_set {assembly other : Assembly}
    (hrequested : other.requested.Perm assembly.requested) :
    other.set.features.Perm assembly.set.features := by
  rw [List.perm_ext_iff_of_nodup other.ordered_set.nodup assembly.ordered_set.nodup]
  intro feature
  simp only [mem_set_iff, hrequested.mem_iff]

/-- However a set is put together, its features stand once each, after all that they depend on, and
they are those that the requested ones need.  Operations only add at the end; inserting tells
whether the feature was missing, and an unknown name changes nothing. -/
theorem set_in_order (assembly : Assembly) :
    assembly.set.features.Nodup ∧
    (∀ before feature behind, assembly.set.features = before ++ feature :: behind →
      ∀ dependency ∈ feature.dependencies, dependency ∈ before) ∧
    (∀ feature ∈ assembly.set.features, ∀ needed, feature.Needs needed →
      needed ∈ assembly.set.features) ∧
    (∀ feature, feature ∈ assembly.set.features ↔
      ∃ request ∈ assembly.requested, request.Needs feature) ∧
    (∀ other : Assembly, other.requested.Perm assembly.requested →
      other.set.features.Perm assembly.set.features) ∧
    ((∀ feature, assembly.set.features <+: (assembly.set.insertIfNew feature).2.features) ∧
      (∀ id, assembly.set.features <+: (assembly.set.insertById id).2.features) ∧
      (∀ features, assembly.set.features <+: (assembly.set.extend features).features) ∧
      ∀ other : Assembly, assembly.set.features <+: (assembly.set.merge other.set).features) ∧
    (∀ feature, (assembly.set.insertIfNew feature).1 = true ↔
      feature ∉ assembly.set.features) ∧
    (∀ id, (∀ feature : Feature, feature.id ≠ id) →
      assembly.set.insertById id = (.error (.unknownFeature id), assembly.set)) := by
  have hordered := assembly.ordered_set
  refine ⟨hordered.nodup, hordered.dependencies_before, fun _ hmem _ => hordered.closed hmem,
    assembly.mem_set_iff, fun _ => perm_set, ⟨?_, ?_, ?_, ?_⟩, ?_, ?_⟩
  · intro feature
    exact (growsBy_insert hordered feature).isPrefix
  · intro id
    exact (growsBy_insertById hordered id).isPrefix
  · intro features
    exact (growsBy_extend hordered features).isPrefix
  · intro other
    exact (growsBy_merge hordered other.growsBy_set).isPrefix
  · intro feature
    simp [insertIfNew, ← contains_iff]
  · intro id hunknown
    rw [FeatureSet.insertById, Feature.ofId_eq_error hunknown]

/-- Merging puts the features that are missing behind the ones that are there.  It is associative,
has the empty set as its unit, and depends on the order of its arguments for the order of the
result only. -/
theorem merge_laws (first second third : Assembly) :
    (first.set.merge second.set).features =
      first.set.features ++
        second.set.features.filter (fun feature => feature ∉ first.set.features) ∧
    (first.set.merge second.set).merge third.set =
      first.set.merge (second.set.merge third.set) ∧
    first.set.merge first.set = first.set ∧
    FeatureSet.empty.merge first.set = first.set ∧
    first.set.merge FeatureSet.empty = first.set ∧
    (first.set.merge second.set).features.Perm (second.set.merge first.set).features :=
  ⟨features_merge second.ordered_set, merge_assoc second.ordered_set third.ordered_set,
    merge_self first.set, empty_merge first.ordered_set, rfl,
    perm_merge first.ordered_set second.ordered_set⟩

end Assembly

end FeatureSet

end LuaLowering
