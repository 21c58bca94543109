import LuaLowering.Json.Reader
import LuaLowering.Options.Setting

namespace LuaLowering

/-! Options from a JSON object.  They belong into its member `tstl`; the ones found beside it count
all the same, and go before those inside. -/

structure Config where
  options : Options := {}
  diagnostics : List Diagnostic := []
deriving Repr

inductive ConfigError where
  | unreadable
  | malformed
  | notAnObject
deriving DecidableEq, Repr

namespace ConfigError

def message? : ConfigError → Option String
  | notAnObject => some "config file root must be a JSON object"
  | _ => none

end ConfigError

namespace Config

def sectionKey : String := "tstl"

/-- Whether a member of the root is an option out of place. -/
def isMisplaced (entry : String × Json) : Bool :=
  entry.1 ≠ sectionKey && (OptionKey.ofName? entry.1).isSome

/-- The members of the section, with the misplaced options put into it. -/
def effectiveEntries (root : Entries String Json) : Entries String Json :=
  let entries := ((root.find? sectionKey).map Json.members).getD []
  (root.filter isMisplaced).foldl (fun entries entry => entries.insert entry.1 entry.2) entries

def report (config : Config) (problem : Problem) : Config :=
  { config with diagnostics := config.diagnostics ++ [Diagnostic.general problem] }

def addEntry (config : Config) (entry : String × Json) : Config :=
  match OptionKey.ofName? entry.1 with
  | none => config.report (.unknownOption entry.1)
  | some key =>
      match key.read entry.2 with
      | .ok (some setting) => { config with options := config.options.set setting }
      | .ok none => config
      | .error problem => config.report problem

/-- Anything but an object sets no options. -/
def ofJson (json : Json) : Config :=
  let root := json.members
  let start : Config := if root.any isMisplaced then report {} .misplacedOptions else {}
  (effectiveEntries root).foldl addEntry start

/-- How many arrays and objects may be open at once in a configuration file. -/
def nesting : Nat := 127

/-- Reads the contents of a configuration file, `none` if there are none. -/
def ofFile (contents : Option ByteArray) : Except ConfigError Config :=
  match contents.bind fun bytes => String.fromUTF8? bytes with
  | none => .error .unreadable
  | some text =>
      match Json.read? nesting text with
      | none => .error .malformed
      | some (.obj members) => .ok (ofJson (.obj members))
      | some _ => .error .notAnObject

end Config

end LuaLowering
