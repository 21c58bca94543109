import LuaLowering.Json.Basic
import LuaLowering.Lua.Target
import LuaLowering.Polyfill.Prelude

namespace LuaLowering

/-! Compiler options. -/

inductive BuildMode where
  | program
  | library
deriving DecidableEq, Repr

namespace BuildMode

def all : List BuildMode := [.program, .library]

def name : BuildMode → String
  | program => "default"
  | library => "library"

end BuildMode

structure Options where
  buildMode : BuildMode := .program
  extension : Option String := none
  luaBundle : Option String := none
  luaBundleEntry : Option String := none
  luaLibImport : ImportStyle := .require
  luaTarget : Lua.Target := .universal
  noImplicitSelf : Bool := false
  noHeader : Bool := false
  sourceMapTraceback : Bool := false
  /-- The members of the object that configures plugins. -/
  luaPlugins : Option (List (String × Json)) := none
  tstlVerbose : Bool := false
  noResolvePaths : List Json := []
  lua51AllowTryCatchInAsyncAwait : Bool := false
deriving Repr

inductive OptionKey where
  | buildMode
  | extension
  | luaBundle
  | luaBundleEntry
  | luaLibImport
  | luaTarget
  | noImplicitSelf
  | noHeader
  | sourceMapTraceback
  | luaPlugins
  | tstlVerbose
  | noResolvePaths
  | lua51AllowTryCatchInAsyncAwait
deriving DecidableEq, Repr

/-- What kind of value an option takes. -/
inductive OptionKind where
  | boolean
  | string
  | object
  | array
  | choice (choices : List String)
deriving DecidableEq, Repr

namespace OptionKind

def name : OptionKind → String
  | boolean => "boolean"
  | string => "string"
  | object => "object"
  | array => "array"
  | choice _ => "enum"

/-- The kind as it is named to people; a choice is written as a string. -/
def expectation : OptionKind → String
  | boolean => "boolean"
  | string => "string"
  | object => "object"
  | array => "array"
  | choice _ => "string"

end OptionKind

namespace OptionKey

/-- All options, in the order in which they are written. -/
def all : List OptionKey :=
  [.buildMode, .extension, .luaBundle, .luaBundleEntry, .luaLibImport, .luaTarget, .noImplicitSelf,
    .noHeader, .sourceMapTraceback, .luaPlugins, .tstlVerbose, .noResolvePaths,
    .lua51AllowTryCatchInAsyncAwait]

def name : OptionKey → String
  | buildMode => "buildMode"
  | extension => "extension"
  | luaBundle => "luaBundle"
  | luaBundleEntry => "luaBundleEntry"
  | luaLibImport => "luaLibImport"
  | luaTarget => "luaTarget"
  | noImplicitSelf => "noImplicitSelf"
  | noHeader => "noHeader"
  | sourceMapTraceback => "sourceMapTraceback"
  | luaPlugins => "luaPlugins"
  | tstlVerbose => "tstlVerbose"
  | noResolvePaths => "noResolvePaths"
  | lua51AllowTryCatchInAsyncAwait => "lua51AllowTryCatchInAsyncAwait"

/-- Short names for the command line. -/
def shortNames : OptionKey → List String
  | luaTarget => ["lt"]
  | _ => []

def kind : OptionKey → OptionKind
  | buildMode => .choice (BuildMode.all.map BuildMode.name)
  | extension => .string
  | luaBundle => .string
  | luaBundleEntry => .string
  | luaLibImport => .choice (ImportStyle.all.map ImportStyle.name)
  | luaTarget => .choice (Lua.Target.all.map Lua.Target.name)
  | noImplicitSelf => .boolean
  | noHeader => .boolean
  | sourceMapTraceback => .boolean
  | luaPlugins => .object
  | tstlVerbose => .boolean
  | noResolvePaths => .array
  | lua51AllowTryCatchInAsyncAwait => .boolean

def ofName? (name : String) : Option OptionKey := all.find? fun key => key.name = name

end OptionKey

namespace Options

/-- The value of an option as JSON; an option that is not set is null. -/
def value (options : Options) : OptionKey → Json
  | .buildMode => .str options.buildMode.name
  | .extension => .ofOption .str options.extension
  | .luaBundle => .ofOption .str options.luaBundle
  | .luaBundleEntry => .ofOption .str options.luaBundleEntry
  | .luaLibImport => .str options.luaLibImport.name
  | .luaTarget => .str options.luaTarget.name
  | .noImplicitSelf => .bool options.noImplicitSelf
  | .noHeader => .bool options.noHeader
  | .sourceMapTraceback => .bool options.sourceMapTraceback
  | .luaPlugins => .ofOption .obj options.luaPlugins
  | .tstlVerbose => .bool options.tstlVerbose
  | .noResolvePaths => .arr options.noResolvePaths
  | .lua51AllowTryCatchInAsyncAwait => .bool options.lua51AllowTryCatchInAsyncAwait

def toJson (options : Options) : Json :=
  .obj (OptionKey.all.map fun key => (key.name, options.value key))

end Options

end LuaLowering
