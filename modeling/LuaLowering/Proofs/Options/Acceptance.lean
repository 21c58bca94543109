import LuaLowering.Proofs.Options.Setting

namespace LuaLowering

/-! Which values an option accepts, as what, and what is said about the others.  All of this depends
on the kind of the option only. -/

namespace OptionKind

/-- What an option of a kind makes of a value that fits it.  A choice is made in capitals or not,
and kept as it is listed. -/
def accept? : OptionKind → Json → Option Json
  | .boolean, .bool value => some (.bool value)
  | .string, .str text => some (.str text)
  | .object, .obj members => some (.obj members)
  | .array, .arr items => some (.arr items)
  | .choice choices, .str text =>
      (choices.find? fun choice => sameIgnoringCase choice text).map Json.str
  | _, _ => none

theorem accept?_null (kind : OptionKind) : kind.accept? .null = none := by
  cases kind <;> rfl

end OptionKind

namespace OptionKey

theorem ofName?_eq_some_iff {name : String} {key : OptionKey} :
    ofName? name = some key ↔ name = key.name := by
  constructor
  · intro hname
    have hfound := List.find?_some hname
    exact (of_decide_eq_true hfound).symm
  · rintro rfl
    exact ofName?_name key

/-- What is wrong with a value that does not fit. -/
def refusal (key : OptionKey) (json : Json) : Problem :=
  match key.kind, json with
  | .choice choices, .str _ => key.wrongChoice choices
  | _, _ => key.wrongType

/-- Null is no value, so there is nothing wrong with it. -/
def complaint? (key : OptionKey) : Json → Option Problem
  | .null => none
  | json => if (key.kind.accept? json).isSome then none else some (key.refusal json)

/-- The ways in which an option can take a value, by what it makes of it and what is reported. -/
inductive Takes (key : OptionKey) :
    Option Json → Option Problem → Except Problem (Option Setting) → Prop
  | unset : Takes key none none (.ok none)
  | accepted (setting : Setting) (hkey : setting.key = key) :
      Takes key (some setting.value) none (.ok (some setting))
  | refused (problem : Problem) : Takes key none (some problem) (.error problem)

end OptionKey

/-- The options after a value has been taken. -/
def Options.settle (options : Options) : Except Problem (Option Setting) → Options
  | .ok (some setting) => options.set setting
  | .ok none => options
  | .error _ => options

namespace OptionKey

theorem Takes.value_settle {key : OptionKey} {value : Option Json} {problem : Option Problem}
    {outcome : Except Problem (Option Setting)} (htakes : key.Takes value problem outcome)
    (options : Options) (other : OptionKey) :
    (options.settle outcome).value other =
      if other = key then value.getD (options.value other) else options.value other := by
  cases htakes with
  | unset => exact (ite_self _).symm
  | accepted setting hkey =>
      rw [Options.settle, Options.value_set, hkey]
      rfl
  | refused => exact (ite_self _).symm

section Families

variable {key : OptionKey} {json : Json}

theorem Takes.of_accept? {setting : Setting} (hkey : setting.key = key)
    (haccept : key.kind.accept? json = some setting.value) :
    key.Takes (key.kind.accept? json) (key.complaint? json) (.ok (some setting)) := by
  have hcomplaint : key.complaint? json = none := by
    cases json with
    | null => rfl
    | bool | int | real | str | arr | obj => simp [complaint?, haccept]
  rw [haccept, hcomplaint]
  exact .accepted setting hkey

theorem Takes.of_refusal (hnull : json ≠ .null) (haccept : key.kind.accept? json = none)
    {problem : Problem} (hrefusal : key.refusal json = problem) :
    key.Takes (key.kind.accept? json) (key.complaint? json) (.error problem) := by
  have hcomplaint : key.complaint? json = some problem := by
    cases json with
    | null => exact absurd rfl hnull
    | bool | int | real | str | arr | obj => simp [complaint?, haccept, hrefusal]
  rw [haccept, hcomplaint]
  exact .refused problem

theorem takes_readBool {setting : Bool → Setting} (hkind : key.kind = .boolean)
    (hkey : ∀ value, (setting value).key = key)
    (hvalue : ∀ value, (setting value).value = .bool value) (hnull : json ≠ .null) :
    key.Takes (key.kind.accept? json) (key.complaint? json)
      ((key.readBool setting json).map some) := by
  have hrefusal : key.refusal json = key.wrongType := by
    simp only [refusal, hkind]
  cases json with
  | bool value =>
      refine .of_accept? (hkey value) ?_
      rw [hkind, hvalue]
      rfl
  | null => exact absurd rfl hnull
  | int | real | str | arr | obj => exact .of_refusal hnull (by rw [hkind]; rfl) hrefusal

theorem takes_readString {setting : String → Setting} (hkind : key.kind = .string)
    (hkey : ∀ text, (setting text).key = key) (hvalue : ∀ text, (setting text).value = .str text)
    (hnull : json ≠ .null) :
    key.Takes (key.kind.accept? json) (key.complaint? json)
      ((key.readString setting json).map some) := by
  have hrefusal : key.refusal json = key.wrongType := by
    simp only [refusal, hkind]
  cases json with
  | str text =>
      refine .of_accept? (hkey text) ?_
      rw [hkind, hvalue]
      rfl
  | null => exact absurd rfl hnull
  | bool | int | real | arr | obj => exact .of_refusal hnull (by rw [hkind]; rfl) hrefusal

theorem takes_readChoice {α : Type} {setting : α → Setting} {all : List α} {name : α → String}
    (hkind : key.kind = .choice (all.map name)) (hkey : ∀ choice, (setting choice).key = key)
    (hvalue : ∀ choice, (setting choice).value = .str (name choice)) (hnull : json ≠ .null) :
    key.Takes (key.kind.accept? json) (key.complaint? json)
      ((key.readChoice setting all name json).map some) := by
  cases json with
  | str text =>
      have haccept : key.kind.accept? (.str text) =
          ((all.find? fun choice => sameIgnoringCase (name choice) text).map name).map
            Json.str := by
        rw [hkind, OptionKind.accept?, List.find?_map]
        rfl
      cases hfind : all.find? fun choice => sameIgnoringCase (name choice) text with
      | some choice =>
          simp only [readChoice, hfind, Except.map]
          refine .of_accept? (hkey choice) ?_
          rw [haccept, hfind, hvalue]
          rfl
      | none =>
          have hrefusal : key.refusal (.str text) = key.wrongChoice (all.map name) := by
            simp only [refusal, hkind]
          simp only [readChoice, hfind, Except.map]
          refine .of_refusal hnull ?_ hrefusal
          rw [haccept, hfind]
          rfl
  | null => exact absurd rfl hnull
  | bool | int | real | arr | obj =>
      exact .of_refusal hnull (by rw [hkind]; rfl) (by simp only [refusal, hkind])

end Families

theorem takes_readValue (key : OptionKey) {json : Json} (hnull : json ≠ .null) :
    key.Takes (key.kind.accept? json) (key.complaint? json) ((key.readValue json).map some) := by
  cases key with
  | buildMode | luaLibImport | luaTarget =>
      exact takes_readChoice rfl (fun _ => rfl) (fun _ => rfl) hnull
  | extension | luaBundle | luaBundleEntry =>
      exact takes_readString rfl (fun _ => rfl) (fun _ => rfl) hnull
  | noImplicitSelf | noHeader | sourceMapTraceback | tstlVerbose
  | lua51AllowTryCatchInAsyncAwait =>
      exact takes_readBool rfl (fun _ => rfl) (fun _ => rfl) hnull
  | luaPlugins =>
      cases json with
      | obj members => exact .of_accept? rfl rfl
      | null => exact absurd rfl hnull
      | bool | int | real | str | arr => exact .of_refusal hnull rfl rfl
  | noResolvePaths =>
      cases json with
      | arr items => exact .of_accept? rfl rfl
      | null => exact absurd rfl hnull
      | bool | int | real | str | obj => exact .of_refusal hnull rfl rfl

theorem takes_read (key : OptionKey) (json : Json) :
    key.Takes (key.kind.accept? json) (key.complaint? json) (key.read json) := by
  cases json with
  | null =>
      rw [OptionKind.accept?_null]
      exact .unset
  | bool | int | real | str | arr | obj => exact key.takes_readValue Json.noConfusion

end OptionKey

end LuaLowering
