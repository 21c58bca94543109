import LuaLowering.Diagnostic
import LuaLowering.Entries

namespace LuaLowering

/-! Language extensions: declarations that source code uses to write Lua features directly.  Each
has a meaning in one position only. -/

/-- The functions that stand for a Lua operator. -/
inductive MappedOperator where
  | addition
  | subtraction
  | multiplication
  | division
  | modulo
  | power
  | floorDivision
  | bitwiseAnd
  | bitwiseOr
  | bitwiseExclusiveOr
  | bitwiseLeftShift
  | bitwiseRightShift
  | concat
  | lessThan
  | greaterThan
  | negation
  | bitwiseNot
  | length
deriving DecidableEq, Repr

inductive OperatorForm where
  | binary (op : Lua.BinaryOp)
  | unary (op : Lua.UnaryOp)
deriving DecidableEq, Repr

namespace OperatorForm

def arity : OperatorForm → Nat
  | binary _ => 2
  | unary _ => 1

def text : OperatorForm → String
  | binary op => op.text
  | unary op => op.text

end OperatorForm

namespace MappedOperator

def all : List MappedOperator :=
  [.addition, .subtraction, .multiplication, .division, .modulo, .power, .floorDivision,
    .bitwiseAnd, .bitwiseOr, .bitwiseExclusiveOr, .bitwiseLeftShift, .bitwiseRightShift, .concat,
    .lessThan, .greaterThan, .negation, .bitwiseNot, .length]

/-- The name under which the extension library declares the operator. -/
def declaration : MappedOperator → String
  | addition => "LuaAddition"
  | subtraction => "LuaSubtraction"
  | multiplication => "LuaMultiplication"
  | division => "LuaDivision"
  | modulo => "LuaModulo"
  | power => "LuaPower"
  | floorDivision => "LuaFloorDivision"
  | bitwiseAnd => "LuaBitwiseAnd"
  | bitwiseOr => "LuaBitwiseOr"
  | bitwiseExclusiveOr => "LuaBitwiseExclusiveOr"
  | bitwiseLeftShift => "LuaBitwiseLeftShift"
  | bitwiseRightShift => "LuaBitwiseRightShift"
  | concat => "LuaConcat"
  | lessThan => "LuaLessThan"
  | greaterThan => "LuaGreaterThan"
  | negation => "LuaNegation"
  | bitwiseNot => "LuaBitwiseNot"
  | length => "LuaLength"

def form : MappedOperator → OperatorForm
  | addition => .binary .add
  | subtraction => .binary .sub
  | multiplication => .binary .mul
  | division => .binary .div
  | modulo => .binary .mod
  | power => .binary .pow
  | floorDivision => .binary .floorDiv
  | bitwiseAnd => .binary .bitAnd
  | bitwiseOr => .binary .bitOr
  | bitwiseExclusiveOr => .binary .bitXor
  | bitwiseLeftShift => .binary .shiftLeft
  | bitwiseRightShift => .binary .shiftRight
  | concat => .binary .concat
  | lessThan => .binary .lt
  | greaterThan => .binary .gt
  | negation => .unary .neg
  | bitwiseNot => .unary .bitNot
  | length => .unary .length

def arity (operator : MappedOperator) : Nat := operator.form.arity

/-- Operators that only some versions of Lua have. -/
def needsIntegers : MappedOperator → Bool
  | floorDivision => true
  | bitwiseAnd => true
  | bitwiseOr => true
  | bitwiseExclusiveOr => true
  | bitwiseLeftShift => true
  | bitwiseRightShift => true
  | bitwiseNot => true
  | _ => false

def isSupportedBy (operator : MappedOperator) (target : Lua.Target) : Bool :=
  !operator.needsIntegers || target.hasIntegerOperators

end MappedOperator

/-- The functions that stand for an access to a table. -/
inductive TableAccess where
  | get
  | has
deriving DecidableEq, Repr

namespace TableAccess

def all : List TableAccess := [.get, .has]

def declaration : TableAccess → String
  | get => "LuaTableGet"
  | has => "LuaTableHas"

def arity : Nat := 2

end TableAccess

inductive Marker where
  | multiReturn
  | operator (operator : MappedOperator)
  | tableAccess (access : TableAccess)
  | vararg
  | range
deriving DecidableEq, Repr

namespace Marker

/-- Of two markers that meet in one identifier the one of lower rank counts. -/
def rank : Marker → Nat
  | multiReturn => 0
  | operator _ => 1
  | tableAccess _ => 2
  | vararg => 3
  | range => 4

/-- Whether a misplaced marker is replaced by a placeholder. -/
def isReplaced : Marker → Bool
  | multiReturn => true
  | vararg => true
  | range => true
  | _ => false

/-- What is wrong with a marker outside its position. -/
def misuse : Marker → Problem
  | multiReturn => .multiReturnMisuse
  | operator _ => .operatorMisuse
  | tableAccess _ => .tableAccessMisuse
  | vararg => .varargMisuse
  | range => .rangeMisuse

def multiReturnName : String := "$multi"

def varargName : String := "$vararg"

def rangeName : String := "$range"

/-- Every marker with the name under which the extension library declares it. -/
def declarations : List (String × Marker) :=
  [(multiReturnName, multiReturn), (varargName, vararg), (rangeName, range)] ++
    MappedOperator.all.map (fun op => (op.declaration, operator op)) ++
    TableAccess.all.map (fun access => (access.declaration, tableAccess access))

end Marker

/-! The extensions a program declares, known by their symbols and never by their spelling. -/

structure ExtensionTable where
  markers : Entries Symbol Marker := []
deriving Repr

namespace ExtensionTable

def ofChecker (checker : Checker) : ExtensionTable :=
  ⟨Entries.ofList (Marker.declarations.filterMap fun (name, marker) =>
    (checker.libraryDeclaration .extensions name).map fun symbol => (symbol, marker))⟩

def size (table : ExtensionTable) : Nat := table.markers.length

def isEmpty (table : ExtensionTable) : Bool := table.markers.isEmpty

def get? (table : ExtensionTable) (symbol : Symbol) : Option Marker := table.markers.find? symbol

/-- The stronger of two markers; the first one if they are equally strong. -/
def stronger : Option Marker → Option Marker → Option Marker
  | some first, some second => some (if second.rank < first.rank then second else first)
  | some first, none => some first
  | none, second => second

/-- The marker that an identifier carries through its symbol or through the symbol of its type. -/
def markerOf (table : ExtensionTable) (checker : Checker) (symbol : Option Symbol) (type : Ty) :
    Option Marker :=
  if table.isEmpty then none
  else
    stronger (symbol.bind fun symbol => table.get? (checker.aliased symbol))
      ((checker.typeSymbol type).bind fun symbol => table.get? (checker.aliased symbol))

end ExtensionTable

end LuaLowering
