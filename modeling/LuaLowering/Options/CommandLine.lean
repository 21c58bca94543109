import LuaLowering.Options.Setting

namespace LuaLowering

/-! Options from command-line arguments. -/

structure CommandLine where
  options : Options
  fileNames : List String := []
  /-- Flags that mean nothing here, for somebody else to read. -/
  passedOn : List String := []
  diagnostics : List Diagnostic := []
deriving Repr

namespace CommandLine

/-- The option that a flag names.  One dash also introduces short names. -/
def flagged? (argument : String) : Option OptionKey :=
  match argument.toList with
  | '-' :: '-' :: name =>
      OptionKey.all.find? fun key => sameIgnoringCase key.name (String.ofList name)
  | '-' :: name =>
      OptionKey.all.find? fun key =>
        sameIgnoringCase key.name (String.ofList name) ||
          key.shortNames.any fun short => sameIgnoringCase short (String.ofList name)
  | _ => none

def isFlag (argument : String) : Bool := argument.toList.head? = some '-'

/-- The value that a flag's option takes, and whether it uses up the next argument.  A boolean flag
takes a truth value if there is one and is true otherwise; any other flag takes what follows,
whatever it looks like. -/
def flagValue (key : OptionKey) (next : Option String) : Except Problem Json × Bool :=
  match key.kind, next with
  | .boolean, some "true" => (.ok (.bool true), true)
  | .boolean, some "false" => (.ok (.bool false), true)
  | .boolean, _ => (.ok (.bool true), false)
  | _, some text => (.ok (.str text), true)
  | _, none => (.error (.missingOptionValue key.name), false)

def addSetting (line : CommandLine) : Except Problem (Option Setting) → CommandLine
  | .ok (some setting) => { line with options := line.options.set setting }
  | .ok none => line
  | .error problem =>
      { line with diagnostics := line.diagnostics ++ [Diagnostic.general problem] }

def addFlag (line : CommandLine) (key : OptionKey) (value : Except Problem Json) : CommandLine :=
  line.addSetting (value.bind key.read)

def addWord (line : CommandLine) (argument : String) : CommandLine :=
  if isFlag argument then { line with passedOn := line.passedOn ++ [argument] }
  else { line with fileNames := line.fileNames ++ [argument] }

def scan (line : CommandLine) : List String → CommandLine
  | [] => line
  | argument :: rest =>
      match flagged? argument with
      | none => (line.addWord argument).scan rest
      | some key =>
          match rest with
          | [] => line.addFlag key (flagValue key none).1
          | next :: others =>
              match flagValue key (some next) with
              | (value, true) => (line.addFlag key value).scan others
              | (value, false) => (line.addFlag key value).scan (next :: others)

/-- Reads arguments on top of options that are already set. -/
def parse (base : Options) (arguments : List String) : CommandLine :=
  scan { options := base } arguments

end CommandLine

end LuaLowering
