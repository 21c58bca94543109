import LuaLowering.Entries
import LuaLowering.Polyfill.Feature
import LuaLowering.Program.Checker

namespace LuaLowering

/-! Standard names that Lua does not have, known by their symbols and never by their spelling. -/

/-- Names read as values. -/
inductive BuiltinValue where
  | notANumber
  | infinity
  | globalThis
deriving DecidableEq, Repr

namespace BuiltinValue

def all : List BuiltinValue := [.notANumber, .infinity, .globalThis]

def name : BuiltinValue → String
  | notANumber => "NaN"
  | infinity => "Infinity"
  | globalThis => "globalThis"

end BuiltinValue

structure BuiltinTable where
  promise : Option Symbol := none
  values : Entries Symbol BuiltinValue := []
  typeFeatures : Entries Symbol Feature := []
deriving Repr

namespace BuiltinTable

/-- The standard classes whose instances need a polyfill. -/
def classFeatures : List (String × Feature) :=
  [("Map", .map), ("Set", .set), ("WeakMap", .weakMap), ("WeakSet", .weakSet), ("Error", .error),
    ("RangeError", .error), ("ReferenceError", .error), ("SyntaxError", .error),
    ("TypeError", .error), ("URIError", .error)]

/-- The entries of the names that a program declares in the standard library. -/
def declared {α : Type} (checker : Checker) (names : List (String × α)) : Entries Symbol α :=
  Entries.ofList (names.filterMap fun (name, value) =>
    (checker.libraryDeclaration .standard name).map fun symbol => (symbol, value))

def ofChecker (checker : Checker) : BuiltinTable where
  promise := checker.libraryDeclaration .standard "Promise"
  values := declared checker (BuiltinValue.all.map fun value => (value.name, value))
  typeFeatures := declared checker classFeatures

/-- The polyfill that takes the place of an identifier: the promise class, unless the name has been
given another type. -/
def substitute? (table : BuiltinTable) (checker : Checker) (symbol : Option Symbol) (type : Ty) :
    Option Feature :=
  match symbol with
  | none => none
  | some symbol =>
      if some (checker.aliased symbol) = table.promise ∧ checker.isStandardType type then
        some .promise
      else none

/-- The polyfill that values of a type need. -/
def typeFeature? (table : BuiltinTable) (checker : Checker) (type : Ty) : Option Feature :=
  if checker.isStandardType type then
    (checker.typeSymbol type).bind fun symbol => table.typeFeatures.find? (checker.aliased symbol)
  else none

def value? (table : BuiltinTable) (checker : Checker) (symbol : Symbol) : Option BuiltinValue :=
  table.values.find? (checker.aliased symbol)

end BuiltinTable

end LuaLowering
