import LuaLowering.Polyfill.Feature

namespace LuaLowering

/-! Sets of polyfills in the order in which their code has to stand: dependencies come first. -/

structure FeatureSet where
  features : List Feature := []
deriving DecidableEq, Repr

namespace FeatureSet

def empty : FeatureSet := {}

def contains (set : FeatureSet) (feature : Feature) : Bool := set.features.contains feature

def size (set : FeatureSet) : Nat := set.features.length

def isEmpty (set : FeatureSet) : Bool := set.features.isEmpty

/-- Adds a feature after all that it depends on. -/
def insert (set : FeatureSet) (feature : Feature) : FeatureSet :=
  if set.contains feature then set
  else
    let prepared := feature.dependencies.attach.foldl
      (fun prepared dependency => prepared.insert dependency.1) set
    ⟨prepared.features ++ [feature]⟩
termination_by feature.depth
decreasing_by exact Feature.depth_lt_of_mem_dependencies dependency.2

theorem insert_eq (set : FeatureSet) (feature : Feature) :
    set.insert feature =
      if set.contains feature then set
      else ⟨(feature.dependencies.foldl insert set).features ++ [feature]⟩ := by
  rw [insert]
  simp

/-- Adds a feature and tells whether it was missing. -/
def insertIfNew (set : FeatureSet) (feature : Feature) : Bool × FeatureSet :=
  (!set.contains feature, set.insert feature)

def insertById (set : FeatureSet) (id : String) : Except LoweringError Bool × FeatureSet :=
  match Feature.ofId id with
  | .ok feature => (.ok (set.insertIfNew feature).1, (set.insertIfNew feature).2)
  | .error error => (.error error, set)

def extend (set : FeatureSet) (features : List Feature) : FeatureSet :=
  features.foldl insert set

def ofList (features : List Feature) : FeatureSet := empty.extend features

def merge (set other : FeatureSet) : FeatureSet := set.extend other.features

end FeatureSet

end LuaLowering
