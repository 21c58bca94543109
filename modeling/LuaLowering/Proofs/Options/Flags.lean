import LuaLowering.Options.CommandLine
import LuaLowering.Proofs.Options.Acceptance

namespace LuaLowering

/-! Flags: how they name their options, what they take as values, and what becomes of these. -/

namespace OptionKey

theorem find?_all_eq_some_iff {matching : OptionKey → Bool} {key : OptionKey}
    (hunique : ∀ first second, matching first = true → matching second = true → first = second) :
    all.find? matching = some key ↔ matching key = true := by
  constructor
  · exact List.find?_some
  · intro hkey
    cases hfind : all.find? matching with
    | none => exact absurd hkey (List.find?_eq_none.mp hfind key key.mem_all)
    | some other => exact congrArg some (hunique other key (List.find?_some hfind) hkey)

/-- The names that one dash introduces. -/
def flagNames (key : OptionKey) : List String := key.name :: key.shortNames

theorem eq_of_flagNames {first second : OptionKey} {name name' text : String}
    (hname : name ∈ first.flagNames) (hname' : name' ∈ second.flagNames)
    (hfirst : sameIgnoringCase name text = true) (hsecond : sameIgnoringCase name' text = true) :
    first = second := by
  have hall : ∀ first ∈ all, ∀ second ∈ all, ∀ name ∈ first.flagNames,
      ∀ name' ∈ second.flagNames,
        sameIgnoringCase name name' = true → first = second := by decide
  refine hall first first.mem_all second second.mem_all name hname name' hname' ?_
  simp only [sameIgnoringCase, decide_eq_true_eq] at hfirst hsecond ⊢
  exact hfirst.trans hsecond.symm

/-- What the flag of an option takes as its value: truth values if it is a boolean, and otherwise
anything. -/
def takesNext (key : OptionKey) (argument : String) : Bool :=
  match key.kind with
  | .boolean => argument = "true" || argument = "false"
  | _ => true

end OptionKey

namespace CommandLine

/-- The flags of an option: two dashes and its name, or one dash and one of its names. -/
inductive IsFlagOf (key : OptionKey) : String → Prop
  | long {name : String} (hname : sameIgnoringCase key.name name = true) :
      IsFlagOf key ("--" ++ name)
  | short {known name : String} (hknown : known ∈ key.flagNames)
      (hname : sameIgnoringCase known name = true) (hdash : isFlag name = false) :
      IsFlagOf key ("-" ++ name)

theorem flagged?_long (name : String) :
    flagged? ("--" ++ name) =
      OptionKey.all.find? fun key => sameIgnoringCase key.name name := by
  have hchars : ("--" ++ name).toList = '-' :: '-' :: name.toList := by simp
  simp only [flagged?, hchars, String.ofList_toList]

theorem flagged?_short {name : String} (hdash : isFlag name = false) :
    flagged? ("-" ++ name) =
      OptionKey.all.find? fun key =>
        key.flagNames.any fun known => sameIgnoringCase known name := by
  have hchars : ("-" ++ name).toList = '-' :: name.toList := by simp
  have hname : ∀ rest, name.toList ≠ '-' :: rest := by
    intro rest hrest
    simp [isFlag, hrest] at hdash
  rw [flagged?, hchars]
  split
  · next rest hrest => exact absurd (List.cons.inj hrest).2 (hname rest)
  · next rest _ hrest =>
      obtain rfl := (List.cons.inj hrest).2
      simp only [String.ofList_toList, OptionKey.flagNames, List.any_cons]
  · next hother => exact absurd rfl (hother _)

theorem flagged?_of_not_isFlag {argument : String} (hdash : isFlag argument = false) :
    flagged? argument = none := by
  unfold flagged?
  split
  · next hchars => simp [isFlag, hchars] at hdash
  · next hchars => simp [isFlag, hchars] at hdash
  · rfl

theorem exists_of_isFlag {argument : String} (hdash : isFlag argument = true) :
    ∃ rest, argument = "-" ++ rest := by
  obtain ⟨rest, hchars⟩ := List.head?_eq_some_iff.mp (of_decide_eq_true hdash)
  refine ⟨String.ofList rest, ?_⟩
  rw [← String.toList_inj, hchars]
  simp

/-- Options are recognised by their flags, and each flag belongs to one option only. -/
theorem flagged?_eq_some_iff {argument : String} {key : OptionKey} :
    flagged? argument = some key ↔ IsFlagOf key argument := by
  have hlong (name : String) : flagged? ("--" ++ name) = some key ↔
      sameIgnoringCase key.name name = true := by
    rw [flagged?_long]
    apply OptionKey.find?_all_eq_some_iff
    intro first second hfirst hsecond
    exact OptionKey.eq_of_flagNames List.mem_cons_self List.mem_cons_self hfirst hsecond
  have hshort {name : String} (hdash : isFlag name = false) :
      flagged? ("-" ++ name) = some key ↔
        ∃ known ∈ key.flagNames, sameIgnoringCase known name = true := by
    rw [flagged?_short hdash, ← List.any_eq_true]
    apply OptionKey.find?_all_eq_some_iff
    intro first second hfirst hsecond
    obtain ⟨known, hknown, hsame⟩ := List.any_eq_true.mp hfirst
    obtain ⟨known', hknown', hsame'⟩ := List.any_eq_true.mp hsecond
    exact OptionKey.eq_of_flagNames hknown hknown' hsame hsame'
  constructor
  · intro hflagged
    cases hdash : isFlag argument with
    | false => cases hflagged.symm.trans (flagged?_of_not_isFlag hdash)
    | true =>
        obtain ⟨rest, rfl⟩ := exists_of_isFlag hdash
        cases hdashes : isFlag rest with
        | false =>
            obtain ⟨known, hknown, hname⟩ := (hshort hdashes).mp hflagged
            exact .short hknown hname hdashes
        | true =>
            obtain ⟨name, rfl⟩ := exists_of_isFlag hdashes
            rw [← String.append_assoc] at hflagged ⊢
            exact .long ((hlong name).mp hflagged)
  · intro hflag
    cases hflag with
    | long hname => exact (hlong _).mpr hname
    | short hknown hname hdash => exact (hshort hdash).mpr ⟨_, hknown, hname⟩

/-! Flags with their values. -/

/-- A flag that occurs, with the value that it takes. -/
structure FlagUse where
  key : OptionKey
  text : Option String

namespace FlagUse

/-- What the option makes of the value.  A boolean is true unless it is said to be false. -/
def value? (use : FlagUse) : Option Json :=
  match use.key.kind, use.text with
  | .boolean, text => some (.bool (text ≠ some "false"))
  | _, none => none
  | kind, some text => kind.accept? (.str text)

def complaint? (use : FlagUse) : Option Problem :=
  match use.key.kind, use.text with
  | .boolean, _ => none
  | _, none => some (.missingOptionValue use.key.name)
  | _, some text => use.key.complaint? (.str text)

/-- A text is neither an object nor an array. -/
theorem value?_eq_none {use : FlagUse} (hkind : use.key.kind = .object ∨ use.key.kind = .array) :
    use.value? = none := by
  obtain ⟨key, text⟩ := use
  unfold value?
  rcases hkind with hkind | hkind
  · rw [hkind]
    cases text with
    | none => rfl
    | some text => rfl
  · rw [hkind]
    cases text with
    | none => rfl
    | some text => rfl

end FlagUse

theorem flagValue_some (key : OptionKey) (next : String) :
    flagValue key (some next) =
      ((flagValue key (if key.takesNext next then some next else none)).1, key.takesNext next) := by
  unfold flagValue OptionKey.takesNext
  cases key.kind with
  | boolean =>
      by_cases htrue : next = "true"
      · subst htrue
        rfl
      · by_cases hfalse : next = "false"
        · subst hfalse
          rfl
        · simp [htrue, hfalse]
  | string | object | array | choice => rfl

theorem flagValue_of_boolean {key : OptionKey} (hkind : key.kind = .boolean)
    (text : Option String) : (flagValue key text).1 = .ok (.bool (text ≠ some "false")) := by
  unfold flagValue
  rw [hkind]
  cases text with
  | none => rfl
  | some text =>
      by_cases htrue : text = "true"
      · subst htrue
        rfl
      · by_cases hfalse : text = "false"
        · subst hfalse
          rfl
        · simp [htrue, hfalse]

theorem takes_flagValue (use : FlagUse) :
    use.key.Takes use.value? use.complaint?
      ((flagValue use.key use.text).1.bind use.key.read) := by
  obtain ⟨key, text⟩ := use
  cases hkind : key.kind with
  | boolean =>
      have htakes := key.takes_read (.bool (text ≠ some "false"))
      have hcomplaint : key.complaint? (.bool (text ≠ some "false")) = none := by
        simp [OptionKey.complaint?, hkind, OptionKind.accept?]
      rw [flagValue_of_boolean hkind]
      rw [hkind, hcomplaint] at htakes
      simp only [FlagUse.value?, FlagUse.complaint?, hkind]
      exact htakes
  | string | object | array | choice =>
      cases text with
      | none =>
          simp only [FlagUse.value?, FlagUse.complaint?, flagValue, hkind]
          exact .refused _
      | some text =>
          have htakes := key.takes_read (.str text)
          rw [hkind] at htakes
          simp only [FlagUse.value?, FlagUse.complaint?, flagValue, hkind]
          exact htakes

end CommandLine

end LuaLowering
