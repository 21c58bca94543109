import LuaLowering.Options.Config
import Mathlib.Logic.Function.Defs

namespace LuaLowering

/-! Options seen through their values: a setting changes the value of one option, and all values
together make up the options. -/

namespace Setting

/-- The option that is set. -/
def key : Setting → OptionKey
  | buildMode _ => .buildMode
  | extension _ => .extension
  | luaBundle _ => .luaBundle
  | luaBundleEntry _ => .luaBundleEntry
  | luaLibImport _ => .luaLibImport
  | luaTarget _ => .luaTarget
  | noImplicitSelf _ => .noImplicitSelf
  | noHeader _ => .noHeader
  | sourceMapTraceback _ => .sourceMapTraceback
  | luaPlugins _ => .luaPlugins
  | tstlVerbose _ => .tstlVerbose
  | noResolvePaths _ => .noResolvePaths
  | lua51AllowTryCatchInAsyncAwait _ => .lua51AllowTryCatchInAsyncAwait

/-- The value that the option takes. -/
def value : Setting → Json
  | buildMode mode => .str mode.name
  | extension text => .str text
  | luaBundle text => .str text
  | luaBundleEntry text => .str text
  | luaLibImport style => .str style.name
  | luaTarget target => .str target.name
  | noImplicitSelf value => .bool value
  | noHeader value => .bool value
  | sourceMapTraceback value => .bool value
  | luaPlugins members => .obj members
  | tstlVerbose value => .bool value
  | noResolvePaths paths => .arr paths
  | lua51AllowTryCatchInAsyncAwait value => .bool value

end Setting

theorem Json.ofOption_injective {α : Type} {encode : α → Json}
    (hinjective : Function.Injective encode) (hnull : ∀ value, encode value ≠ .null) :
    Function.Injective (Json.ofOption encode) := by
  intro first second heq
  cases first with
  | none =>
      cases second with
      | none => rfl
      | some value => exact absurd heq.symm (hnull value)
  | some value =>
      cases second with
      | none => exact absurd heq (hnull value)
      | some value' => exact congrArg some (hinjective heq)

theorem Json.ofOption_str_injective : Function.Injective (Json.ofOption Json.str) :=
  ofOption_injective (fun _ _ => Json.str.inj) (fun _ => Json.noConfusion)

theorem Json.ofOption_obj_injective : Function.Injective (Json.ofOption Json.obj) :=
  ofOption_injective (fun _ _ => Json.obj.inj) (fun _ => Json.noConfusion)

/-! Choices are told apart by their names, in whatever case these are written. -/

/-- Looking for the name of a choice finds that choice. -/
def FoundByName {α : Type} (all : List α) (name : α → String) : Prop :=
  ∀ choice, all.find? (fun other => sameIgnoringCase (name other) (name choice)) = some choice

theorem FoundByName.injective {α : Type} {all : List α} {name : α → String}
    (hfound : FoundByName all name) : Function.Injective name := by
  intro first second hname
  have hfirst := hfound first
  rw [hname, hfound second] at hfirst
  exact (Option.some.inj hfirst).symm

theorem BuildMode.foundByName : FoundByName BuildMode.all BuildMode.name := by
  intro mode
  cases mode <;> decide

theorem ImportStyle.foundByName : FoundByName ImportStyle.all ImportStyle.name := by
  intro style
  cases style <;> decide

theorem Lua.Target.foundByName : FoundByName Lua.Target.all Lua.Target.name := by
  intro target
  cases target <;> decide

namespace OptionKey

theorem mem_all (key : OptionKey) : key ∈ all := by
  cases key <;> decide

theorem ofName?_name (key : OptionKey) : ofName? key.name = some key := by
  cases key <;> decide

theorem name_injective : Function.Injective name := by
  intro first second hname
  have hfirst := ofName?_name first
  rw [hname, ofName?_name second] at hfirst
  exact (Option.some.inj hfirst).symm

theorem readChoice_name {α : Type} {all : List α} {name : α → String}
    (hfound : FoundByName all name) (key : OptionKey) (setting : α → Setting) (choice : α) :
    key.readChoice setting all name (.str (name choice)) = .ok (setting choice) := by
  rw [readChoice, hfound choice]

end OptionKey

namespace Config

theorem name_ne_sectionKey (key : OptionKey) : key.name ≠ sectionKey := by
  cases key <;> decide

theorem isMisplaced_name (key : OptionKey) (json : Json) :
    isMisplaced (key.name, json) = true := by
  simp [isMisplaced, name_ne_sectionKey, OptionKey.ofName?_name]

end Config

namespace Options

theorem value_set (options : Options) (setting : Setting) (key : OptionKey) :
    (options.set setting).value key =
      if key = setting.key then setting.value else options.value key := by
  cases setting <;> cases key <;> rfl

theorem eq_of_value_eq {options options' : Options}
    (hvalue : ∀ key, options.value key = options'.value key) : options = options' := by
  cases options
  cases options'
  congr 1
  · exact BuildMode.foundByName.injective (Json.str.inj (hvalue .buildMode))
  · exact Json.ofOption_str_injective (hvalue .extension)
  · exact Json.ofOption_str_injective (hvalue .luaBundle)
  · exact Json.ofOption_str_injective (hvalue .luaBundleEntry)
  · exact ImportStyle.foundByName.injective (Json.str.inj (hvalue .luaLibImport))
  · exact Lua.Target.foundByName.injective (Json.str.inj (hvalue .luaTarget))
  · exact Json.bool.inj (hvalue .noImplicitSelf)
  · exact Json.bool.inj (hvalue .noHeader)
  · exact Json.bool.inj (hvalue .sourceMapTraceback)
  · exact Json.ofOption_obj_injective (hvalue .luaPlugins)
  · exact Json.bool.inj (hvalue .tstlVerbose)
  · exact Json.arr.inj (hvalue .noResolvePaths)
  · exact Json.bool.inj (hvalue .lua51AllowTryCatchInAsyncAwait)

end Options

/-! Values that are read as what they were written for. -/

namespace OptionKey

/-- Null may stand for the option only if that is its value by default. -/
inductive ReadsBack (key : OptionKey) : Json → Prop
  | unset (hdefault : ({} : Options).value key = .null) : ReadsBack key .null
  | setting {json : Json} {setting : Setting} (hread : key.read json = .ok (some setting))
      (hkey : setting.key = key) (hvalue : setting.value = json) : ReadsBack key json

namespace ReadsBack

variable {key : OptionKey}

theorem ofOption {α : Type} {encode : α → Json} (hdefault : ({} : Options).value key = .null)
    (hencode : ∀ value, ReadsBack key (encode value)) (option : Option α) :
    ReadsBack key (Json.ofOption encode option) := by
  cases option with
  | none => exact .unset hdefault
  | some value => exact hencode value

end ReadsBack

end OptionKey

theorem Options.readsBack_value (options : Options) (key : OptionKey) :
    key.ReadsBack (options.value key) := by
  cases key with
  | buildMode =>
      have hread := OptionKey.readChoice_name BuildMode.foundByName .buildMode .buildMode
      exact .setting (congrArg (Except.map some) (hread options.buildMode)) rfl rfl
  | luaLibImport =>
      have hread := OptionKey.readChoice_name ImportStyle.foundByName .luaLibImport .luaLibImport
      exact .setting (congrArg (Except.map some) (hread options.luaLibImport)) rfl rfl
  | luaTarget =>
      have hread := OptionKey.readChoice_name Lua.Target.foundByName .luaTarget .luaTarget
      exact .setting (congrArg (Except.map some) (hread options.luaTarget)) rfl rfl
  | extension =>
      refine .ofOption rfl ?_ options.extension
      intro text
      exact .setting rfl rfl rfl
  | luaBundle =>
      refine .ofOption rfl ?_ options.luaBundle
      intro text
      exact .setting rfl rfl rfl
  | luaBundleEntry =>
      refine .ofOption rfl ?_ options.luaBundleEntry
      intro text
      exact .setting rfl rfl rfl
  | luaPlugins =>
      refine .ofOption rfl ?_ options.luaPlugins
      intro members
      exact .setting rfl rfl rfl
  | noImplicitSelf => exact .setting rfl rfl rfl
  | noHeader => exact .setting rfl rfl rfl
  | sourceMapTraceback => exact .setting rfl rfl rfl
  | tstlVerbose => exact .setting rfl rfl rfl
  | noResolvePaths => exact .setting rfl rfl rfl
  | lua51AllowTryCatchInAsyncAwait => exact .setting rfl rfl rfl

end LuaLowering
