import LuaLowering.Error
import LuaLowering.Polyfill.Body.Arrays
import LuaLowering.Polyfill.Body.Classes
import LuaLowering.Polyfill.Body.Collections
import LuaLowering.Polyfill.Body.Iteration
import LuaLowering.Polyfill.Body.Promises

namespace LuaLowering

/-! The catalogue of polyfills: routines in Lua that stand in for what the source language has built
in. -/

/-- Lines of text, each closed by a newline. -/
def unlines (lines : List String) : String := String.join (lines.map fun line => line ++ "\n")

inductive Feature where
  | arrayPush
  | arraySplice
  | class'
  | classExtends
  | error
  | functionBind
  | instanceOf
  | iterator
  | map
  | new
  | promise
  | set
  | symbol
  | unpack
  | weakMap
  | weakSet
deriving DecidableEq, Repr

namespace Feature

def all : List Feature :=
  [.arrayPush, .arraySplice, .class', .classExtends, .error, .functionBind, .instanceOf, .iterator,
    .map, .new, .promise, .set, .symbol, .unpack, .weakMap, .weakSet]

def id : Feature → String
  | arrayPush => "ArrayPush"
  | arraySplice => "ArraySplice"
  | class' => "Class"
  | classExtends => "ClassExtends"
  | error => "Error"
  | functionBind => "FunctionBind"
  | instanceOf => "InstanceOf"
  | iterator => "Iterator"
  | map => "Map"
  | new => "New"
  | promise => "Promise"
  | set => "Set"
  | symbol => "Symbol"
  | unpack => "Unpack"
  | weakMap => "WeakMap"
  | weakSet => "WeakSet"

def ofId (id : String) : Except LoweringError Feature :=
  match all.find? fun feature => feature.id = id with
  | some feature => .ok feature
  | none => .error (.unknownFeature id)

/-- The feature's Lua code, line by line. -/
def body : Feature → List String
  | arrayPush => Polyfill.Body.arrayPush
  | arraySplice => Polyfill.Body.arraySplice
  | class' => Polyfill.Body.class'
  | classExtends => Polyfill.Body.classExtends
  | error => Polyfill.Body.error
  | functionBind => Polyfill.Body.functionBind
  | instanceOf => Polyfill.Body.instanceOf
  | iterator => Polyfill.Body.iterator
  | map => Polyfill.Body.map
  | new => Polyfill.Body.new
  | promise => Polyfill.Body.promise
  | set => Polyfill.Body.set
  | symbol => Polyfill.Body.symbol
  | unpack => Polyfill.Body.unpack
  | weakMap => Polyfill.Body.weakMap
  | weakSet => Polyfill.Body.weakSet

def text (feature : Feature) : String := unlines feature.body

/-- The name by which emitted code reaches the feature. -/
def entryPoint : Feature → String
  | arrayPush => "__TS__ArrayPush"
  | arraySplice => "__TS__ArraySplice"
  | class' => "__TS__Class"
  | classExtends => "__TS__ClassExtends"
  | error => "Error"
  | functionBind => "__TS__FunctionBind"
  | instanceOf => "__TS__InstanceOf"
  | iterator => "__TS__Iterator"
  | map => "Map"
  | new => "__TS__New"
  | promise => "__TS__Promise"
  | set => "Set"
  | symbol => "__TS__Symbol"
  | unpack => "__TS__Unpack"
  | weakMap => "WeakMap"
  | weakSet => "WeakSet"

/-- The names a feature's code defines, the entry point first. -/
def exports (feature : Feature) : List String :=
  feature.entryPoint :: match feature with
    | error => ["RangeError", "ReferenceError", "SyntaxError", "TypeError", "URIError"]
    | symbol => ["Symbol"]
    | _ => []

/-- The features whose names a feature's code uses. -/
def dependencies : Feature → List Feature
  | error => [.class', .classExtends, .new]
  | instanceOf => [.symbol]
  | iterator => [.symbol]
  | map => [.class', .iterator, .symbol]
  | set => [.class', .iterator, .symbol]
  | weakMap => [.class', .iterator, .symbol]
  | weakSet => [.class', .iterator, .symbol]
  | promise => [.arrayPush, .class', .functionBind, .instanceOf, .new]
  | _ => []

/-- The length of the longest chain of dependencies below a feature. -/
def depth : Feature → Nat
  | error => 1
  | instanceOf => 1
  | iterator => 1
  | map => 2
  | set => 2
  | weakMap => 2
  | weakSet => 2
  | promise => 2
  | _ => 0

theorem depth_lt_of_mem_dependencies {feature dependency : Feature}
    (h : dependency ∈ feature.dependencies) : dependency.depth < feature.depth := by
  revert dependency
  cases feature <;> simp [dependencies, depth]

end Feature

end LuaLowering
