import LuaLowering.Lua.Target
import LuaLowering.Program.Checker
import LuaLowering.Text

namespace LuaLowering

/-! Problems in the user's source and configuration.  They are reported and never stop the work. -/

inductive Severity where
  | error
  | warning
  | info
deriving DecidableEq, Repr

namespace Severity

def text : Severity → String
  | error => "error"
  | warning => "warning"
  | info => "info"

end Severity

inductive Problem where
  | multiReturnMisuse
  | operatorMisuse
  | tableAccessMisuse
  | varargMisuse
  | rangeMisuse
  /-- A comment tag that no longer has an effect. -/
  | removedTag (tag : TypeTag)
  /-- A name that is only declared, so that it cannot be respelled, and is no Lua identifier. -/
  | unspellableAmbient (name : String)
  | unsupportedOperator (declaration : String) (target : Lua.Target)
  | unknownOption (name : String)
  | wrongOptionType (name expected : String)
  | wrongOptionChoice (flag choices : String)
  | missingOptionValue (name : String)
  | misplacedOptions
deriving DecidableEq, Repr

namespace Problem

def code : Problem → String
  | multiReturnMisuse => "L1001"
  | operatorMisuse => "L1002"
  | tableAccessMisuse => "L1003"
  | varargMisuse => "L1004"
  | rangeMisuse => "L1005"
  | unspellableAmbient _ => "L1006"
  | unsupportedOperator .. => "L1007"
  | removedTag _ => "L1101"
  | unknownOption _ => "C2001"
  | wrongOptionType .. => "C2002"
  | wrongOptionChoice .. => "C2003"
  | missingOptionValue _ => "C2004"
  | misplacedOptions => "C2101"

def severity : Problem → Severity
  | removedTag _ => .info
  | misplacedOptions => .warning
  | _ => .error

end Problem

structure Diagnostic where
  unit : Option UnitId
  span : Option Span
  problem : Problem
deriving DecidableEq, Repr

namespace Diagnostic

def located (unit : UnitId) (span : Span) (problem : Problem) : Diagnostic :=
  { unit := some unit, span := some span, problem := problem }

/-- A problem of the configuration, which has no place in any unit. -/
def general (problem : Problem) : Diagnostic :=
  { unit := none, span := none, problem := problem }

def code (diagnostic : Diagnostic) : String := diagnostic.problem.code

def severity (diagnostic : Diagnostic) : Severity := diagnostic.problem.severity

def startPosition? (diagnostic : Diagnostic) (table : LineTable) : Option Position :=
  diagnostic.span.map fun span => table.position span.start

end Diagnostic

/-! Diagnostics in the order in which they were reported. -/

structure Log where
  entries : List Diagnostic := []
deriving DecidableEq, Repr

namespace Log

def add (log : Log) (diagnostic : Diagnostic) : Log := ⟨log.entries ++ [diagnostic]⟩

def extend (log : Log) (diagnostics : List Diagnostic) : Log := ⟨log.entries ++ diagnostics⟩

def ofUnit (log : Log) (unit : UnitId) : List Diagnostic :=
  log.entries.filter fun diagnostic => diagnostic.unit = some unit

def errorCount (log : Log) : Nat :=
  log.entries.countP fun diagnostic => diagnostic.severity = .error

def warningCount (log : Log) : Nat :=
  log.entries.countP fun diagnostic => diagnostic.severity = .warning

def hasErrors (log : Log) : Bool := log.entries.any fun diagnostic => diagnostic.severity = .error

def size (log : Log) : Nat := log.entries.length

def isEmpty (log : Log) : Bool := log.entries.isEmpty

/-- Hands over all diagnostics and starts afresh. -/
def take (log : Log) : List Diagnostic × Log := (log.entries, {})

@[simp] theorem entries_add (log : Log) (diagnostic : Diagnostic) :
    (log.add diagnostic).entries = log.entries ++ [diagnostic] := rfl

@[simp] theorem entries_extend (log : Log) (diagnostics : List Diagnostic) :
    (log.extend diagnostics).entries = log.entries ++ diagnostics := rfl

end Log

end LuaLowering
