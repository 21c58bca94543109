import LuaLowering.Proofs.Options.Flags

namespace LuaLowering.CommandLine

/-! The roles of command-line arguments.  The role of an argument depends on the argument itself and
on the flag directly before it, if there is one; all that a command line amounts to can be read off
the roles. -/

inductive Role where
  /-- A flag of an option. -/
  | flag (key : OptionKey)
  /-- The value of the flag directly before it. -/
  | value
  /-- A flag of no option. -/
  | passedOn
  | fileName
deriving DecidableEq, Repr

namespace Role

def key? : Role → Option OptionKey
  | flag key => some key
  | _ => none

end Role

/-- The roles that an argument can have behind the flag of some option, or behind no such flag. -/
inductive HasRole (before : Option OptionKey) (argument : String) : Role → Prop
  | value {key : OptionKey} (hbefore : before = some key)
      (htakes : key.takesNext argument = true) : HasRole before argument .value
  | flag {key : OptionKey} (hfree : ∀ key, before = some key → key.takesNext argument = false)
      (hflag : IsFlagOf key argument) : HasRole before argument (.flag key)
  | passedOn (hfree : ∀ key, before = some key → key.takesNext argument = false)
      (hflag : ∀ key, ¬ IsFlagOf key argument) (hdash : isFlag argument = true) :
      HasRole before argument .passedOn
  | fileName (hfree : ∀ key, before = some key → key.takesNext argument = false)
      (hdash : isFlag argument = false) : HasRole before argument .fileName

/-- The option whose flag stands directly before a place. -/
def flagBefore (before : Option OptionKey) (roles : List Role) : Nat → Option OptionKey
  | 0 => before
  | place + 1 => roles[place]?.bind Role.key?

/-- Every argument has a role, and one that it can have behind the role before it. -/
structure AreRoles (before : Option OptionKey) (arguments : List String) (roles : List Role) :
    Prop where
  length_eq : roles.length = arguments.length
  hasRole : ∀ place argument role, arguments[place]? = some argument → roles[place]? = some role →
    HasRole (flagBefore before roles place) argument role

/-! There is one way to give arguments their roles. -/

def Role.of (before : Option OptionKey) (argument : String) : Role :=
  if before.any fun key => key.takesNext argument then .value
  else
    match flagged? argument with
    | some key => .flag key
    | none => if isFlag argument then .passedOn else .fileName

def rolesAfter : Option OptionKey → List String → List Role
  | _, [] => []
  | before, argument :: rest =>
      Role.of before argument :: rolesAfter (Role.of before argument).key? rest

section Roles

variable {before : Option OptionKey} {argument : String} {key : OptionKey}

theorem of_of_takesNext (htakes : key.takesNext argument = true) :
    Role.of (some key) argument = .value := by
  simp [Role.of, htakes]

theorem of_of_free (hfree : ∀ key, before = some key → key.takesNext argument = false) :
    Role.of before argument = Role.of none argument := by
  cases before with
  | none => rfl
  | some key => simp [Role.of, hfree key rfl]

theorem of_none_of_flagged (hflagged : flagged? argument = some key) :
    Role.of none argument = .flag key := by
  simp [Role.of, hflagged]

theorem of_none_of_not_flagged (hflagged : flagged? argument = none) :
    Role.of none argument = if isFlag argument then .passedOn else .fileName := by
  simp [Role.of, hflagged]

theorem eq_of_hasRole {role : Role} (hrole : HasRole before argument role) :
    role = Role.of before argument := by
  cases hrole with
  | value hbefore htakes => rw [hbefore, of_of_takesNext htakes]
  | flag hfree hflag =>
      rw [of_of_free hfree, of_none_of_flagged (flagged?_eq_some_iff.mpr hflag)]
  | passedOn hfree hflag hdash =>
      have hflagged : flagged? argument = none := by
        rw [Option.eq_none_iff_forall_ne_some]
        intro key hkey
        exact hflag key (flagged?_eq_some_iff.mp hkey)
      rw [of_of_free hfree, of_none_of_not_flagged hflagged, if_pos hdash]
  | fileName hfree hdash =>
      rw [of_of_free hfree, of_none_of_not_flagged (flagged?_of_not_isFlag hdash), hdash]
      rfl

theorem hasRole_of (before : Option OptionKey) (argument : String) :
    HasRole before argument (Role.of before argument) := by
  cases htaken : before.any fun key => key.takesNext argument with
  | true =>
      cases before with
      | none => cases htaken
      | some key =>
          have htakes : key.takesNext argument = true := htaken
          rw [of_of_takesNext htakes]
          exact .value rfl htakes
  | false =>
      have hfree : ∀ key, before = some key → key.takesNext argument = false := by
        rintro key rfl
        exact htaken
      rw [of_of_free hfree]
      cases hflagged : flagged? argument with
      | some key =>
          rw [of_none_of_flagged hflagged]
          exact .flag hfree (flagged?_eq_some_iff.mp hflagged)
      | none =>
          have hflag : ∀ key, ¬ IsFlagOf key argument := by
            intro key hkey
            cases hflagged.symm.trans (flagged?_eq_some_iff.mpr hkey)
          rw [of_none_of_not_flagged hflagged]
          cases hdash : isFlag argument with
          | true => exact .passedOn hfree hflag hdash
          | false => exact .fileName hfree hdash

end Roles

theorem flagBefore_cons (before : Option OptionKey) (role : Role) (roles : List Role)
    (place : Nat) :
    flagBefore before (role :: roles) (place + 1) = flagBefore role.key? roles place := by
  cases place with
  | zero => rfl
  | succ place => rfl

theorem areRoles_cons {before : Option OptionKey} {argument : String} {arguments : List String}
    {role : Role} {roles : List Role} :
    AreRoles before (argument :: arguments) (role :: roles) ↔
      HasRole before argument role ∧ AreRoles role.key? arguments roles := by
  constructor
  · intro hroles
    refine ⟨hroles.hasRole 0 argument role rfl rfl, Nat.succ.inj hroles.length_eq, ?_⟩
    intro place other role' hargument hrole
    rw [← flagBefore_cons before]
    exact hroles.hasRole (place + 1) other role' hargument hrole
  · rintro ⟨hfirst, hrest⟩
    refine ⟨congrArg Nat.succ hrest.length_eq, ?_⟩
    intro place other role' hargument hrole
    cases place with
    | zero =>
        cases hargument
        cases hrole
        exact hfirst
    | succ place =>
        rw [flagBefore_cons]
        exact hrest.hasRole place other role' hargument hrole

theorem areRoles_iff {before : Option OptionKey} {arguments : List String} {roles : List Role} :
    AreRoles before arguments roles ↔ roles = rolesAfter before arguments := by
  induction arguments generalizing before roles with
  | nil =>
      constructor
      · intro hroles
        exact List.length_eq_zero_iff.mp hroles.length_eq
      · rintro rfl
        exact ⟨rfl, fun _ _ _ hargument => nomatch hargument⟩
  | cons argument arguments ih =>
      cases roles with
      | nil =>
          constructor
          · intro hroles
            cases hroles.length_eq
          · intro heq
            cases heq
      | cons role roles =>
          rw [areRoles_cons, rolesAfter, List.cons.injEq, ih]
          constructor
          · rintro ⟨hrole, rfl⟩
            obtain rfl := eq_of_hasRole hrole
            exact ⟨rfl, rfl⟩
          · rintro ⟨rfl, rfl⟩
            exact ⟨hasRole_of before argument, rfl⟩

/-! What the roles say. -/

/-- The value that stands first. -/
def firstValue? : List (String × Role) → Option String
  | (text, .value) :: _ => some text
  | _ => none

/-- The flags among arguments that have got their roles. -/
def uses : List (String × Role) → List FlagUse
  | [] => []
  | (_, .flag key) :: rest => ⟨key, firstValue? rest⟩ :: uses rest
  | _ :: rest => uses rest

/-- The arguments of a role. -/
def withRole (role : Role) (reading : List (String × Role)) : List String :=
  (reading.filter fun entry => entry.2 = role).map Prod.fst

/-- The last value for an option that was accepted. -/
def lastAccepted? (key : OptionKey) (uses : List FlagUse) : Option Json :=
  (uses.filterMap fun use => if use.key = key then use.value? else none).getLast?

def complaints (uses : List FlagUse) : List Diagnostic :=
  (uses.filterMap FlagUse.complaint?).map Diagnostic.general

/-- The arguments with their roles. -/
def reading (before : Option OptionKey) (arguments : List String) : List (String × Role) :=
  arguments.zip (rolesAfter before arguments)

theorem firstValue?_append {first second : List (String × Role)}
    (hsecond : firstValue? second = none) : firstValue? (first ++ second) = firstValue? first := by
  cases first with
  | nil => exact hsecond
  | cons entry first =>
      obtain ⟨argument, role⟩ := entry
      cases role with
      | flag | value | passedOn | fileName => rfl

theorem uses_append {first second : List (String × Role)} (hsecond : firstValue? second = none) :
    uses (first ++ second) = uses first ++ uses second := by
  induction first with
  | nil => rfl
  | cons entry first ih =>
      obtain ⟨argument, role⟩ := entry
      cases role with
      | flag key => simp only [List.cons_append, uses, firstValue?_append hsecond, ih]
      | value | passedOn | fileName => exact ih

theorem withRole_append (role : Role) (first second : List (String × Role)) :
    withRole role (first ++ second) = withRole role first ++ withRole role second := by
  rw [withRole, List.filter_append, List.map_append]
  rfl

theorem lastAccepted?_append (key : OptionKey) (first second : List FlagUse) :
    lastAccepted? key (first ++ second) =
      (lastAccepted? key second).or (lastAccepted? key first) := by
  rw [lastAccepted?, List.filterMap_append, List.getLast?_append]
  rfl

theorem complaints_append (first second : List FlagUse) :
    complaints (first ++ second) = complaints first ++ complaints second := by
  rw [complaints, List.filterMap_append, List.map_append]
  rfl

/-! What a line gains by arguments with their roles. -/

/-- The result says about a line what the arguments of a reading add to it. -/
structure ReadsAs (line : CommandLine) (reading : List (String × Role)) (result : CommandLine) :
    Prop where
  fileNames : result.fileNames = line.fileNames ++ withRole .fileName reading
  passedOn : result.passedOn = line.passedOn ++ withRole .passedOn reading
  diagnostics : result.diagnostics = line.diagnostics ++ complaints (uses reading)
  value : ∀ key, result.options.value key =
    (lastAccepted? key (uses reading)).getD (line.options.value key)

section Steps

variable {line middle result : CommandLine} {first second : List (String × Role)}

theorem ReadsAs.nil (line : CommandLine) : ReadsAs line [] line where
  fileNames := (List.append_nil _).symm
  passedOn := (List.append_nil _).symm
  diagnostics := (List.append_nil _).symm
  value _ := rfl

theorem ReadsAs.append (hfirst : ReadsAs line first middle) (hsecond : ReadsAs middle second result)
    (hvalue : firstValue? second = none) : ReadsAs line (first ++ second) result where
  fileNames := by
    rw [hsecond.fileNames, hfirst.fileNames, withRole_append, List.append_assoc]
  passedOn := by
    rw [hsecond.passedOn, hfirst.passedOn, withRole_append, List.append_assoc]
  diagnostics := by
    rw [hsecond.diagnostics, hfirst.diagnostics, uses_append hvalue, complaints_append,
      List.append_assoc]
  value key := by
    rw [hsecond.value, hfirst.value, uses_append hvalue, lastAccepted?_append]
    cases lastAccepted? key (uses second) with
    | none => rfl
    | some json => rfl

theorem readsAs_addWord {argument : String} (hflagged : flagged? argument = none)
    (line : CommandLine) :
    ReadsAs line [(argument, Role.of none argument)] (line.addWord argument) := by
  rw [of_none_of_not_flagged hflagged, addWord]
  split
  · exact ⟨(List.append_nil _).symm, rfl, (List.append_nil _).symm, fun _ => rfl⟩
  · exact ⟨rfl, (List.append_nil _).symm, (List.append_nil _).symm, fun _ => rfl⟩

theorem options_addSetting (line : CommandLine) (outcome : Except Problem (Option Setting)) :
    (line.addSetting outcome).options = line.options.settle outcome := by
  rcases outcome with problem | setting
  · rfl
  · cases setting with
    | none => rfl
    | some setting => rfl

theorem diagnostics_addSetting {key : OptionKey} {value : Option Json} {problem : Option Problem}
    {outcome : Except Problem (Option Setting)} (htakes : key.Takes value problem outcome)
    (line : CommandLine) :
    (line.addSetting outcome).diagnostics =
      line.diagnostics ++ problem.toList.map Diagnostic.general := by
  cases htakes with
  | unset => exact (List.append_nil _).symm
  | accepted => exact (List.append_nil _).symm
  | refused => rfl

theorem words_addSetting (line : CommandLine) (outcome : Except Problem (Option Setting)) :
    (line.addSetting outcome).fileNames = line.fileNames ∧
      (line.addSetting outcome).passedOn = line.passedOn := by
  rcases outcome with problem | setting
  · exact ⟨rfl, rfl⟩
  · cases setting with
    | none => exact ⟨rfl, rfl⟩
    | some setting => exact ⟨rfl, rfl⟩

theorem lastAccepted?_singleton (key : OptionKey) (use : FlagUse) :
    lastAccepted? key [use] = if use.key = key then use.value? else none := by
  rw [lastAccepted?, List.filterMap_cons]
  cases (if use.key = key then use.value? else none) with
  | none => rfl
  | some json => rfl

theorem complaints_singleton (use : FlagUse) :
    complaints [use] = use.complaint?.toList.map Diagnostic.general := by
  rw [complaints, List.filterMap_cons]
  cases use.complaint? with
  | none => rfl
  | some problem => rfl

/-- A flag with its value sets nothing but its option. -/
theorem readsAs_addFlag (use : FlagUse) (huses : uses first = [use])
    (hfiles : withRole .fileName first = []) (hpassed : withRole .passedOn first = [])
    (line : CommandLine) :
    ReadsAs line first (line.addFlag use.key (flagValue use.key use.text).1) := by
  have htakes := takes_flagValue use
  obtain ⟨hfileNames, hpassedOn⟩ :=
    words_addSetting line ((flagValue use.key use.text).1.bind use.key.read)
  refine ⟨?_, ?_, ?_, ?_⟩
  · rw [hfiles, List.append_nil]
    exact hfileNames
  · rw [hpassed, List.append_nil]
    exact hpassedOn
  · rw [huses, complaints_singleton]
    exact diagnostics_addSetting htakes line
  · intro key
    rw [huses, lastAccepted?_singleton, addFlag, options_addSetting, htakes.value_settle]
    by_cases hkey : use.key = key
    · rw [if_pos hkey, if_pos hkey.symm]
    · rw [if_neg hkey, if_neg (Ne.symm hkey)]
      rfl

theorem readsAs_flag (line : CommandLine) (argument : String) (key : OptionKey) :
    ReadsAs line [(argument, .flag key)] (line.addFlag key (flagValue key none).1) := by
  refine readsAs_addFlag ⟨key, none⟩ ?_ ?_ ?_ line
  · rfl
  · rfl
  · rfl

theorem readsAs_flag_value (line : CommandLine) (argument next : String) (key : OptionKey) :
    ReadsAs line [(argument, .flag key), (next, .value)]
      (line.addFlag key (flagValue key (some next)).1) := by
  refine readsAs_addFlag ⟨key, some next⟩ ?_ ?_ ?_ line
  · rfl
  · rfl
  · rfl

end Steps

/-! The scan. -/

theorem reading_cons (before : Option OptionKey) (argument : String) (rest : List String) :
    reading before (argument :: rest) =
      (argument, Role.of before argument) :: reading (Role.of before argument).key? rest := rfl

theorem key?_of_none_of_not_flagged {argument : String} (hflagged : flagged? argument = none) :
    (Role.of none argument).key? = none := by
  rw [of_none_of_not_flagged hflagged]
  cases isFlag argument with
  | true => rfl
  | false => rfl

/-- A value stands behind its flag only. -/
theorem firstValue?_reading (arguments : List String) :
    firstValue? (reading none arguments) = none := by
  cases arguments with
  | nil => rfl
  | cons argument rest =>
      rw [reading_cons]
      have hrole := hasRole_of none argument
      generalize Role.of none argument = role at hrole ⊢
      cases hrole with
      | value hbefore => cases hbefore
      | flag | passedOn | fileName => rfl

/-- What the scan makes of arguments is what their roles say. -/
theorem readsAs_scan (line : CommandLine) (arguments : List String) :
    ReadsAs line (reading none arguments) (line.scan arguments) := by
  fun_induction scan line arguments with
  | case1 line => exact .nil line
  | case2 line argument rest hflagged ih =>
      rw [reading_cons, key?_of_none_of_not_flagged hflagged]
      exact (readsAs_addWord hflagged line).append ih (firstValue?_reading rest)
  | case3 line argument key hflagged =>
      rw [reading_cons, of_none_of_flagged hflagged]
      exact readsAs_flag line argument key
  | case4 line argument key hflagged next others value hvalue ih =>
      -- The flag takes the next argument, so the scan goes on behind both.
      have htakes : key.takesNext next = true := by
        rw [flagValue_some] at hvalue
        exact (Prod.mk.inj hvalue).2
      have hflag := readsAs_flag_value line argument next key
      rw [hvalue] at hflag
      rw [reading_cons, of_none_of_flagged hflagged, Role.key?, reading_cons,
        of_of_takesNext htakes]
      exact hflag.append ih (firstValue?_reading others)
  | case5 line argument key hflagged next others value hvalue ih =>
      -- The flag stands alone, and the next argument is read as if there were no flag before it.
      rw [flagValue_some] at hvalue
      obtain ⟨hvalue, htakes⟩ := Prod.mk.inj hvalue
      rw [htakes, if_neg Bool.false_ne_true] at hvalue
      have hfree : ∀ other, some key = some other → other.takesNext next = false := by
        rintro other ⟨⟩
        exact htakes
      have hflag := readsAs_flag line argument key
      rw [hvalue] at hflag
      rw [reading_cons, of_none_of_flagged hflagged, Role.key?, reading_cons, of_of_free hfree]
      exact hflag.append ih (firstValue?_reading (next :: others))

theorem lastAccepted?_eq_none {key : OptionKey} (hkind : key.kind = .object ∨ key.kind = .array)
    (uses : List FlagUse) : lastAccepted? key uses = none := by
  rw [lastAccepted?, List.getLast?_eq_none_iff, List.filterMap_eq_nil_iff]
  intro use _
  split
  case isTrue hkey =>
    rw [← hkey] at hkind
    exact FlagUse.value?_eq_none hkind
  case isFalse => rfl

/-- Arguments have their roles in one way only, and the roles say what is read: which arguments are
file names or passed on, that each option has the last value that was accepted for it or else the
one from before, and which values are complained about.  No flag can set an object or an array. -/
theorem parse_follows_roles (base : Options) (arguments : List String) :
    ∃ roles, (∀ other, AreRoles none arguments other ↔ other = roles) ∧
      (parse base arguments).fileNames = withRole .fileName (arguments.zip roles) ∧
      (parse base arguments).passedOn = withRole .passedOn (arguments.zip roles) ∧
      (∀ key, (parse base arguments).options.value key =
        (lastAccepted? key (uses (arguments.zip roles))).getD (base.value key)) ∧
      (parse base arguments).options.luaPlugins = base.luaPlugins ∧
      (parse base arguments).options.noResolvePaths = base.noResolvePaths ∧
      (parse base arguments).diagnostics = complaints (uses (arguments.zip roles)) := by
  have hreads : ReadsAs { options := base } (reading none arguments) (parse base arguments) :=
    readsAs_scan _ arguments
  have hkept (key : OptionKey) (hkind : key.kind = .object ∨ key.kind = .array) :
      (parse base arguments).options.value key = base.value key := by
    rw [hreads.value, lastAccepted?_eq_none hkind]
    rfl
  exact ⟨rolesAfter none arguments, fun _ => areRoles_iff, hreads.fileNames, hreads.passedOn,
    hreads.value, Json.ofOption_obj_injective (hkept .luaPlugins (Or.inl rfl)),
    Json.arr.inj (hkept .noResolvePaths (Or.inr rfl)), hreads.diagnostics⟩

/-! Arguments in two parts. -/

theorem reading_append (before : Option OptionKey) (first second : List String) :
    reading before (first ++ second) =
      reading before first ++
        reading (flagBefore before (rolesAfter before first) first.length) second := by
  induction first generalizing before with
  | nil => rfl
  | cons argument first ih =>
      rw [List.cons_append, reading_cons, ih, reading_cons, List.cons_append, rolesAfter,
        List.length_cons, flagBefore_cons]

theorem flagBefore_length {roles : List Role} (hlast : ∀ key, roles.getLast? ≠ some (.flag key)) :
    flagBefore none roles roles.length = none := by
  cases hlength : roles.length with
  | zero => rfl
  | succ place =>
      have hplace : roles[place]? = roles.getLast? := by
        rw [List.getLast?_eq_getElem?, hlength]
        rfl
      rw [flagBefore, hplace]
      cases hrole : roles.getLast? with
      | none => rfl
      | some role =>
          cases role with
          | flag key => exact absurd hrole (hlast key)
          | value | passedOn | fileName => rfl

theorem ReadsAs.unique {line result result' : CommandLine} {reading : List (String × Role)}
    (hresult : ReadsAs line reading result) (hresult' : ReadsAs line reading result') :
    result = result' := by
  have hoptions : result.options = result'.options :=
    Options.eq_of_value_eq fun key => (hresult.value key).trans (hresult'.value key).symm
  have hfiles := hresult.fileNames.trans hresult'.fileNames.symm
  have hpassed := hresult.passedOn.trans hresult'.passedOn.symm
  have hdiagnostics := hresult.diagnostics.trans hresult'.diagnostics.symm
  cases result
  cases result'
  congr 1

/-- What was read before stays in front of what is read now. -/
theorem ReadsAs.behind {line result : CommandLine} {reading : List (String × Role)}
    (hresult : ReadsAs { options := line.options } reading result) :
    ReadsAs line reading
      { options := result.options
        fileNames := line.fileNames ++ result.fileNames
        passedOn := line.passedOn ++ result.passedOn
        diagnostics := line.diagnostics ++ result.diagnostics } where
  fileNames := congrArg (line.fileNames ++ ·) hresult.fileNames
  passedOn := congrArg (line.passedOn ++ ·) hresult.passedOn
  diagnostics := congrArg (line.diagnostics ++ ·) hresult.diagnostics
  value := hresult.value

/-- Behind arguments of which the last one is not a flag of an option, others are read as if they
stood alone, on top of the options so far. -/
theorem parse_append {base : Options} {first second : List String} {roles : List Role}
    (hroles : AreRoles none first roles) (hlast : ∀ key, roles.getLast? ≠ some (.flag key)) :
    parse base (first ++ second) =
      let front := parse base first
      let behind := parse front.options second
      { options := behind.options
        fileNames := front.fileNames ++ behind.fileNames
        passedOn := front.passedOn ++ behind.passedOn
        diagnostics := front.diagnostics ++ behind.diagnostics } := by
  have hreading : reading none (first ++ second) = reading none first ++ reading none second := by
    rw [reading_append, ← areRoles_iff.mp hroles, ← hroles.length_eq, flagBefore_length hlast]
  have hwhole : ReadsAs { options := base } (reading none (first ++ second))
      (parse base (first ++ second)) := readsAs_scan _ _
  have hfront : ReadsAs { options := base } (reading none first) (parse base first) :=
    readsAs_scan _ _
  have hbehind : ReadsAs { options := (parse base first).options } (reading none second)
      (parse (parse base first).options second) := readsAs_scan _ _
  rw [hreading] at hwhole
  exact hwhole.unique (hfront.append hbehind.behind (firstValue?_reading second))

/-- A truth value that is no longer taken by a flag, since the flag before it is itself a value. -/
theorem parse_append_truthValue :
    AreRoles none ["--noHeader", "false", "-LT", "--tstlVerbose"]
      [.flag .noHeader, .value, .flag .luaTarget, .value] ∧
    (parse { tstlVerbose := true }
      (["--noHeader", "false", "-LT", "--tstlVerbose"] ++ ["true", "-x", "--luatarget", "jit"])) =
      { options := { tstlVerbose := true, luaTarget := .luaJit }
        fileNames := ["true"]
        passedOn := ["-x"]
        diagnostics := [.general (.wrongOptionChoice "--luaTarget"
          "universal, 5.0, 5.1, 5.2, 5.3, 5.4, JIT")] } := by
  have hroles : AreRoles none ["--noHeader", "false", "-LT", "--tstlVerbose"]
      [.flag .noHeader, .value, .flag .luaTarget, .value] := by
    rw [areRoles_iff]
    decide
  have hlast : ∀ key, [Role.flag .noHeader, .value, .flag .luaTarget, .value].getLast? ≠
      some (.flag key) := nofun
  refine ⟨hroles, ?_⟩
  rw [parse_append hroles hlast]
  rfl

end LuaLowering.CommandLine
