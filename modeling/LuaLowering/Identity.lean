import LuaLowering.Entries
import LuaLowering.Error
import LuaLowering.Lua.Expr
import LuaLowering.Program.Checker

namespace LuaLowering

/-! Identities are given to symbols in the order of first use, starting from one.  Zero belongs to
temporaries. -/

structure IdentityInfo where
  symbol : Symbol
  firstSeen : Option Span
deriving DecidableEq, Repr

/-- The way from symbols to identities, and back: what is known about an identity stands in
`infos`, one place before it. -/
structure IdentityTable where
  identities : Entries Symbol Identity := []
  infos : List IdentityInfo := []
  limit : UInt32 := 0xFFFFFFFF
deriving DecidableEq, Repr

namespace IdentityTable

def withLimit (limit : UInt32) : IdentityTable := { limit := limit }

def size (table : IdentityTable) : Nat := table.infos.length

def isEmpty (table : IdentityTable) : Bool := table.infos.isEmpty

def lookup? (table : IdentityTable) (symbol : Symbol) : Option Identity :=
  table.identities.find? symbol

def info? (table : IdentityTable) (identity : Identity) : Option IdentityInfo :=
  if identity.isTemporary then none else table.infos[identity.value.toNat - 1]?

/-- The number of identities given so far, as identities count. -/
def allocated (table : IdentityTable) : UInt32 := UInt32.ofNat table.infos.length

def next (table : IdentityTable) : Identity := ⟨table.allocated + 1⟩

def add (table : IdentityTable) (symbol : Symbol) (firstSeen : Option Span) : IdentityTable :=
  { table with
    identities := table.identities.insert symbol table.next
    infos := table.infos ++ [⟨symbol, firstSeen⟩] }

/-- The identity of a symbol, a fresh one at its first use, and the table that is left behind.
Known symbols keep theirs even when there are no more to give. -/
def identify (table : IdentityTable) (symbol : Symbol) (firstSeen : Option Span) :
    Except LoweringError Identity × IdentityTable :=
  match table.lookup? symbol with
  | some identity => (.ok identity, table)
  | none =>
      if table.limit ≤ table.allocated then (.error (.identitiesExhausted table.allocated), table)
      else (.ok table.next, table.add symbol firstSeen)

def debugText (table : IdentityTable) : String :=
  "SymbolIdAllocator \x7b len: " ++ toString table.size ++ " \x7d"

end IdentityTable

end LuaLowering
