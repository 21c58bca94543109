import LuaLowering.Diagnostic
import LuaLowering.Options.Basic

namespace LuaLowering

/-! Values for options, checked against the kind of the option. -/

/-- An option together with a value that fits it. -/
inductive Setting where
  | buildMode (mode : BuildMode)
  | extension (text : String)
  | luaBundle (text : String)
  | luaBundleEntry (text : String)
  | luaLibImport (style : ImportStyle)
  | luaTarget (target : Lua.Target)
  | noImplicitSelf (value : Bool)
  | noHeader (value : Bool)
  | sourceMapTraceback (value : Bool)
  | luaPlugins (members : List (String × Json))
  | tstlVerbose (value : Bool)
  | noResolvePaths (paths : List Json)
  | lua51AllowTryCatchInAsyncAwait (value : Bool)
deriving Repr

namespace Options

def set (options : Options) : Setting → Options
  | .buildMode mode => { options with buildMode := mode }
  | .extension text => { options with extension := some text }
  | .luaBundle text => { options with luaBundle := some text }
  | .luaBundleEntry text => { options with luaBundleEntry := some text }
  | .luaLibImport style => { options with luaLibImport := style }
  | .luaTarget target => { options with luaTarget := target }
  | .noImplicitSelf value => { options with noImplicitSelf := value }
  | .noHeader value => { options with noHeader := value }
  | .sourceMapTraceback value => { options with sourceMapTraceback := value }
  | .luaPlugins members => { options with luaPlugins := some members }
  | .tstlVerbose value => { options with tstlVerbose := value }
  | .noResolvePaths paths => { options with noResolvePaths := paths }
  | .lua51AllowTryCatchInAsyncAwait value =>
      { options with lua51AllowTryCatchInAsyncAwait := value }

end Options

/-- Whether two words differ at most in the case of ASCII letters. -/
def sameIgnoringCase (first second : String) : Bool :=
  first.toList.map Char.toLower = second.toList.map Char.toLower

namespace OptionKey

def wrongType (key : OptionKey) : Problem := .wrongOptionType key.name key.kind.expectation

def wrongChoice (key : OptionKey) (choices : List String) : Problem :=
  .wrongOptionChoice ("--" ++ key.name) (", ".intercalate choices)

def readBool (key : OptionKey) (setting : Bool → Setting) : Json → Except Problem Setting
  | .bool value => .ok (setting value)
  | _ => .error key.wrongType

def readString (key : OptionKey) (setting : String → Setting) : Json → Except Problem Setting
  | .str value => .ok (setting value)
  | _ => .error key.wrongType

/-- A choice is made by its name, in capitals or not. -/
def readChoice {α : Type} (key : OptionKey) (setting : α → Setting) (all : List α)
    (name : α → String) : Json → Except Problem Setting
  | .str text =>
      match all.find? fun choice => sameIgnoringCase (name choice) text with
      | some choice => .ok (setting choice)
      | none => .error (key.wrongChoice (all.map name))
  | _ => .error key.wrongType

/-- Reads a value that is not null. -/
def readValue (key : OptionKey) (json : Json) : Except Problem Setting :=
  match key with
  | buildMode => key.readChoice .buildMode BuildMode.all BuildMode.name json
  | extension => key.readString .extension json
  | luaBundle => key.readString .luaBundle json
  | luaBundleEntry => key.readString .luaBundleEntry json
  | luaLibImport => key.readChoice .luaLibImport ImportStyle.all ImportStyle.name json
  | luaTarget => key.readChoice .luaTarget Lua.Target.all Lua.Target.name json
  | noImplicitSelf => key.readBool .noImplicitSelf json
  | noHeader => key.readBool .noHeader json
  | sourceMapTraceback => key.readBool .sourceMapTraceback json
  | luaPlugins =>
      match json with
      | .obj members => .ok (.luaPlugins members)
      | _ => .error key.wrongType
  | tstlVerbose => key.readBool .tstlVerbose json
  | noResolvePaths =>
      match json with
      | .arr items => .ok (.noResolvePaths items)
      | _ => .error key.wrongType
  | lua51AllowTryCatchInAsyncAwait => key.readBool .lua51AllowTryCatchInAsyncAwait json

/-- Null stands for no value at all, whatever the option. -/
def read (key : OptionKey) (json : Json) : Except Problem (Option Setting) :=
  match json with
  | .null => .ok none
  | _ => (key.readValue json).map some

end OptionKey

end LuaLowering
