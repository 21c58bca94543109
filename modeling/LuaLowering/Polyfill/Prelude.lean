import LuaLowering.Polyfill.FeatureSet

namespace LuaLowering

/-! The Lua code that brings a set of polyfills into a file. -/

/-- How emitted files get at the polyfills they use. -/
inductive ImportStyle where
  | nothing
  | always
  | inline
  | require
deriving DecidableEq, Repr

namespace ImportStyle

def all : List ImportStyle := [.nothing, .always, .inline, .require]

def name : ImportStyle → String
  | nothing => "none"
  | always => "always"
  | inline => "inline"
  | require => "require"

end ImportStyle

namespace Prelude

def requireLine : String := "local ____lualib = require(\"lualib_bundle\")"

def bindingLine (name : String) : String := "local " ++ name ++ " = ____lualib." ++ name

def exportedNames (set : FeatureSet) : List String := set.features.flatMap Feature.exports

def closeLine (text : String) : String := if text.endsWith '\n' then text else text ++ "\n"

/-- Adds the code of a feature, its last line closed, and a blank line. -/
def addBlock (text : String) (feature : Feature) : String :=
  closeLine (text ++ feature.text) ++ "\n"

def inlineText (set : FeatureSet) : String := set.features.foldl addBlock ""

def requireText (set : FeatureSet) : String :=
  unlines (requireLine :: (exportedNames set).map bindingLine)

/-- An unused library is required only if it always has to be. -/
def text (style : ImportStyle) (set : FeatureSet) : String :=
  match style with
  | .nothing => ""
  | .inline => inlineText set
  | .require => if set.isEmpty then "" else requireText set
  | .always => requireText set

end Prelude

end LuaLowering
