import LuaLowering.Entries
import LuaLowering.Number

namespace LuaLowering

/-! JSON values.  An object keeps the order of its members; whole numbers are kept apart from
doubles. -/

inductive Json where
  | null
  | bool (value : Bool)
  | int (value : Int)
  | real (value : Binary64)
  | str (value : String)
  | arr (items : List Json)
  | obj (members : List (String × Json))
deriving Inhabited, Repr

namespace Json

def member? (json : Json) (key : String) : Option Json :=
  match json with
  | obj members => Entries.find? members key
  | _ => none

/-- The members of an object; any other value has none. -/
def members (json : Json) : Entries String Json :=
  match json with
  | obj members => members
  | _ => []

def ofOption {α : Type} (encode : α → Json) : Option α → Json
  | none => null
  | some value => encode value

end Json

end LuaLowering
