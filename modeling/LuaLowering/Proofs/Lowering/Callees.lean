import LuaLowering.Lua.Render
import LuaLowering.Proofs.Lowering.Requests

namespace LuaLowering

/-! What is called in emitted code.  A call is written without parentheses around what it calls, so
that Lua reads it as a call of something else unless that is a name, an entry of a table or another
call. -/

namespace Source.Expr

/-- Names and calls. -/
def isNameOrCall : Expr → Bool
  | .ident _ => true
  | .call .. => true
  | _ => false

end Source.Expr

namespace Lua.Expr

/-- Whether nothing is called that would need parentheses. -/
def CallsBare (expr : Expr) : Prop := ∀ callee ∈ expr.callees, callee.isIndexable = true

def CallBare (exprs : List Expr) : Prop := ∀ callee ∈ calleesAll exprs, callee.isIndexable = true

section Bare

variable {first second : Expr} {exprs : List Expr}

theorem callsBare_of_callees_eq_nil (hcallees : first.callees = []) : first.CallsBare := by
  rw [CallsBare, hcallees]
  exact List.forall_mem_nil _

theorem callsBare_ident (word : Ident) : (ident word).CallsBare := by
  apply callsBare_of_callees_eq_nil
  rw [callees]

theorem callsBare_field (key : String) : (field first key).CallsBare ↔ first.CallsBare := by
  simp only [CallsBare, callees_field]

theorem callsBare_call :
    (call first exprs).CallsBare ↔
      first.isIndexable = true ∧ first.CallsBare ∧ CallBare exprs := by
  simp only [CallsBare, CallBare, callees, List.forall_mem_cons, List.forall_mem_append]

theorem callsBare_index : (index first second).CallsBare ↔ first.CallsBare ∧ second.CallsBare := by
  simp only [CallsBare, callees, List.forall_mem_append]

theorem callsBare_binary (op : BinaryOp) :
    (binary op first second).CallsBare ↔ first.CallsBare ∧ second.CallsBare := by
  simp only [CallsBare, callees, List.forall_mem_append]

theorem callsBare_unary (op : UnaryOp) : (unary op first).CallsBare ↔ first.CallsBare := by
  simp only [CallsBare, callees]

theorem callsBare_multiple : (multiple exprs).CallsBare ↔ CallBare exprs := by
  simp only [CallsBare, CallBare, callees]

theorem callBare_nil : CallBare [] := List.forall_mem_nil _

theorem callBare_cons : CallBare (first :: exprs) ↔ first.CallsBare ∧ CallBare exprs := by
  simp only [CallsBare, CallBare, calleesAll, List.forall_mem_append]

end Bare

end Lua.Expr

namespace ExportPath

theorem callsBare_access (path : ExportPath) (word : Lua.Ident) :
    (path.access word).CallsBare := by
  have hfold (keys : List String) {table : Lua.Expr} (htable : table.CallsBare) :
      (keys.foldl Lua.Expr.field table).CallsBare := by
    induction keys generalizing table with
    | nil => exact htable
    | cons key keys ih => exact ih ((Lua.Expr.callsBare_field key).mpr htable)
  rw [access, Lua.Expr.callsBare_field, table]
  cases path.segments with
  | nil => exact Lua.Expr.callsBare_ident _
  | cons first rest =>
      obtain ⟨root, hroot, _⟩ := root_eq_ident first
      apply hfold
      rw [hroot]
      exact Lua.Expr.callsBare_ident root

end ExportPath

namespace Environment

open Lower

/-! Calls that are lowered to something that cannot be called without parentheses. -/

/-- Marker calls that become an operation or a list of values. -/
def becomesOperation (env : Environment) : Source.Expr → Bool
  | .call callee _ _ =>
      match env.calleeMarker callee with
      | some .multiReturn => true
      | some (.operator _) => true
      | some (.tableAccess .has) => true
      | _ => false
  | _ => false

/-- Whether what is called becomes an operation. -/
def callsOperation (env : Environment) : Source.Expr → Bool
  | .call callee _ _ => env.becomesOperation callee
  | _ => false

/-- Nothing that lowering comes to is a call of an operation. -/
def CallsNoOperation (env : Environment) (expr : Source.Expr) : Prop :=
  ∀ part, env.Visits expr part → env.callsOperation part = false

/-- Only names and calls are called, and names are not read as values of their own. -/
structure CallsNames (env : Environment) (expr : Source.Expr) : Prop where
  callees : ∀ call ∈ expr.calls, call.1.isNameOrCall = true
  defined : ∀ identifier ∈ expr.identifiers, identifier.isUndefined = false
  notBuiltin : ∀ identifier ∈ expr.identifiers, ¬ env.IsBuiltinValue identifier

section Calls

variable {env : Environment} {callee inner : Source.Expr} {arguments : List Source.Expr}
  {span : Span}

theorem callsOperation_of_calleeMarker {marker : Marker}
    (hmarker : env.calleeMarker callee = some marker) :
    env.callsOperation (.call callee arguments span) = false := by
  obtain ⟨identifier, rfl, _⟩ := env.exists_of_calleeMarker hmarker
  rfl

theorem callsNoOperation_ident (identifier : Identifier) :
    env.CallsNoOperation (.ident identifier) := by
  intro part hvisits
  cases hvisits
  rfl

theorem callsNoOperation_call_range (hmarker : env.calleeMarker callee = some .range) :
    env.CallsNoOperation (.call callee arguments span) := by
  intro part hvisits
  cases hvisits with
  | self => exact callsOperation_of_calleeMarker hmarker
  | callee hplain => simp [hmarker] at hplain
  | argument hother => exact absurd hmarker hother

theorem callsNoOperation_call_marker {marker : Marker}
    (hmarker : env.calleeMarker callee = some marker)
    (hsanctioned : marker.isSanctionedAt .callee) :
    env.CallsNoOperation (.call callee arguments span) ↔
      ∀ argument ∈ arguments, env.CallsNoOperation argument := by
  constructor
  · intro hcall argument hmem part hvisits
    refine hcall part (.argument ?_ hmem hvisits)
    intro hrange
    cases hmarker.symm.trans hrange
    cases hsanctioned
  · intro harguments part hvisits
    cases hvisits with
    | self => exact callsOperation_of_calleeMarker hmarker
    | callee hplain =>
        rcases hplain with hplain | hplain
        · cases hmarker.symm.trans hplain
        · cases hmarker.symm.trans hplain
          cases hsanctioned
    | argument _ hmem hvisits => exact harguments _ hmem part hvisits

theorem callsNoOperation_call_plain
    (hmarker : env.calleeMarker callee = none ∨ env.calleeMarker callee = some .vararg) :
    env.CallsNoOperation (.call callee arguments span) ↔
      env.becomesOperation callee = false ∧ env.CallsNoOperation callee ∧
        ∀ argument ∈ arguments, env.CallsNoOperation argument := by
  constructor
  · intro hcall
    refine ⟨hcall _ (.self _), ?_, ?_⟩
    · intro part hvisits
      exact hcall part (.callee hmarker hvisits)
    · intro argument hmem part hvisits
      refine hcall part (.argument ?_ hmem hvisits)
      intro hrange
      simp [hrange] at hmarker
  · rintro ⟨hself, hcallee, harguments⟩ part hvisits
    cases hvisits with
    | self => exact hself
    | callee _ hvisits => exact hcallee part hvisits
    | argument _ hmem hvisits => exact harguments _ hmem part hvisits

theorem callsNoOperation_spread_varargs (hvarargs : env.isVarargs inner = true) :
    env.CallsNoOperation (.spread inner span) := by
  intro part hvisits
  cases hvisits with
  | self => rfl
  | operand hother => cases hvarargs.symm.trans hother

theorem callsNoOperation_spread (hvarargs : env.isVarargs inner = false) :
    env.CallsNoOperation (.spread inner span) ↔ env.CallsNoOperation inner := by
  constructor
  · intro hspread part hvisits
    exact hspread part (.operand hvarargs hvisits)
  · intro hinner part hvisits
    cases hvisits with
    | self => rfl
    | operand _ hvisits => exact hinner part hvisits

namespace CallsNames

theorem ofCallee (hnames : env.CallsNames (.call callee arguments span)) :
    callee.isNameOrCall = true ∧ env.CallsNames callee := by
  obtain ⟨hcallees, hdefined, hbuiltin⟩ := hnames
  simp only [Source.Expr.calls, Source.Expr.identifiers, List.forall_mem_cons,
    List.forall_mem_append] at hcallees hdefined hbuiltin
  exact ⟨hcallees.1, hcallees.2.1, hdefined.1, hbuiltin.1⟩

theorem ofArgument (hnames : env.CallsNames (.call callee arguments span)) :
    ∀ argument ∈ arguments, env.CallsNames argument := by
  obtain ⟨hcallees, hdefined, hbuiltin⟩ := hnames
  simp only [Source.Expr.calls, Source.Expr.identifiers, List.forall_mem_cons,
    List.forall_mem_append] at hcallees hdefined hbuiltin
  have harguments := And.intro hcallees.2.2 (And.intro hdefined.2 hbuiltin.2)
  clear hcallees hdefined hbuiltin
  induction arguments with
  | nil => exact List.forall_mem_nil _
  | cons first rest ih =>
      simp only [Source.Expr.callsAll, Source.Expr.identifiersAll, List.forall_mem_append]
        at harguments
      obtain ⟨⟨hcalls, hcalls'⟩, ⟨hdefined, hdefined'⟩, hbuiltin, hbuiltin'⟩ := harguments
      exact List.forall_mem_cons.mpr
        ⟨⟨hcalls, hdefined, hbuiltin⟩, ih ⟨hcalls', hdefined', hbuiltin'⟩⟩

theorem ofOperand (hnames : env.CallsNames (.spread inner span)) : env.CallsNames inner := by
  obtain ⟨hcallees, hdefined, hbuiltin⟩ := hnames
  simp only [Source.Expr.calls, Source.Expr.identifiers] at hcallees hdefined hbuiltin
  exact ⟨hcallees, hdefined, hbuiltin⟩

end CallsNames

end Calls

/-! The two properties of a lowered expression: whether it can be called bare, and whether all calls
inside it are of something that can. -/

section Reads

variable {env : Environment} {identifier : Identifier}

theorem bare_lowerRead (hdefined : identifier.isUndefined = false)
    (hbuiltin : ¬ env.IsBuiltinValue identifier) :
    Yields (env.lowerRead identifier) fun value =>
      value.isIndexable = true ∧ value.CallsBare := by
  by_cases htables : env.IsReadThroughTables identifier
  · obtain ⟨symbol, path, hsymbol, hpath⟩ := htables
    rw [lowerRead_of_exportPath hsymbol hpath, lowerExport]
    refine Yields.bind_any fun mangled => Yields.bind_any fun identity => Yields.pure ?_
    exact ⟨rfl, path.callsBare_access _⟩
  · have hresolved : env.IsResolved identifier := ⟨htables, hdefined, hbuiltin⟩
    have hreads := env.reads_lowerRead identifier
    generalize env.lowerRead identifier = step at hreads ⊢
    cases hreads with
    | endless => exact Yields.throw _
    | exported hsymbol hpath => exact absurd ⟨_, _, hsymbol, hpath⟩ htables
    | constant hother => exact absurd hresolved hother
    | global hother => exact absurd hresolved hother
    | resolved =>
        exact Yields.bind_any fun word => Yields.pure ⟨rfl, Lua.Expr.callsBare_ident word⟩

end Reads

section Assembly

variable {operands : List Lua.Expr}

theorem isIndexable_applyOperator (operator : MappedOperator) (operands : List Lua.Expr) :
    Yields (applyOperator operator operands) fun value => value.isIndexable = false := by
  unfold applyOperator
  split
  · exact Yields.pure rfl
  · exact Yields.pure rfl
  · exact Yields.throw _

theorem callsBare_applyOperator (operator : MappedOperator) :
    Yields (applyOperator operator operands) fun value =>
      value.CallsBare ↔ Lua.Expr.CallBare operands := by
  unfold applyOperator
  split
  · refine Yields.pure ?_
    simp only [Lua.Expr.callsBare_binary, Lua.Expr.callBare_cons, Lua.Expr.callBare_nil, and_true]
  · refine Yields.pure ?_
    simp only [Lua.Expr.callsBare_unary, Lua.Expr.callBare_cons, Lua.Expr.callBare_nil, and_true]
  · exact Yields.throw _

theorem isIndexable_applyTableAccess (access : TableAccess) (operands : List Lua.Expr) :
    Yields (applyTableAccess access operands) fun value =>
      value.isIndexable = decide (access = .get) := by
  unfold applyTableAccess
  split
  · cases access with
    | get => exact Yields.pure rfl
    | has => exact Yields.pure rfl
  · exact Yields.throw _

theorem callsBare_applyTableAccess (access : TableAccess) :
    Yields (applyTableAccess access operands) fun value =>
      value.CallsBare ↔ Lua.Expr.CallBare operands := by
  have hnil : Lua.Expr.nil.CallsBare :=
    Lua.Expr.callsBare_of_callees_eq_nil (by rw [Lua.Expr.callees])
  unfold applyTableAccess
  split
  · cases access with
    | get =>
        refine Yields.pure ?_
        simp only [Lua.Expr.callsBare_index, Lua.Expr.callBare_cons, Lua.Expr.callBare_nil,
          and_true]
    | has =>
        refine Yields.pure ?_
        simp only [Lua.Expr.callsBare_binary, Lua.Expr.callsBare_index, Lua.Expr.callBare_cons,
          Lua.Expr.callBare_nil, hnil, and_true]
  · exact Yields.throw _

theorem bare_unpacker (env : Environment) :
    Yields env.unpacker fun value => value.isIndexable = true ∧ value.CallsBare := by
  unfold unpacker
  cases env.options.luaTarget with
  | universal =>
      exact Yields.bind_any fun _ => Yields.pure ⟨rfl, Lua.Expr.callsBare_ident _⟩
  | lua50 | lua51 | luaJit => exact Yields.pure ⟨rfl, Lua.Expr.callsBare_ident _⟩
  | lua52 | lua53 | lua54 =>
      refine Yields.pure ⟨rfl, ?_⟩
      rw [Lua.Expr.callsBare_field]
      exact Lua.Expr.callsBare_ident _

end Assembly

/-- Of the names and calls exactly the operations need parentheses to be called. -/
theorem isIndexable_lower {env : Environment} {expr : Source.Expr}
    (hcallable : expr.isNameOrCall = true) (hnames : env.CallsNames expr) :
    Yields (env.lower expr) fun value => value.isIndexable = !env.becomesOperation expr := by
  cases expr with
  | spread | numeric | string => cases hcallable
  | ident identifier =>
      simp only [lower]
      have hmem : identifier ∈ (Source.Expr.ident identifier).identifiers := by
        simp only [Source.Expr.identifiers, List.mem_singleton]
      refine (bare_lowerRead (hnames.defined _ hmem) (hnames.notBuiltin _ hmem)).mono ?_
      intro value hvalue
      exact hvalue.1
  | call callee arguments span =>
      have hplain : Yields (do
          let function ← env.lower callee
          return Lua.Expr.call function (← env.lowerAll arguments))
          fun value => value.isIndexable = true :=
        Yields.bind_any fun _ => Yields.bind_any fun _ => Yields.pure rfl
      simp only [lower, becomesOperation]
      cases env.calleeMarker callee with
      | none => exact hplain
      | some marker =>
          cases marker with
          | multiReturn => exact Yields.bind_any fun _ => Yields.pure rfl
          | operator operator =>
              simp only
              split
              · exact Yields.bind_any fun _ => Yields.bind_any fun values =>
                  isIndexable_applyOperator operator values
              · exact Yields.throw _
          | tableAccess access =>
              refine Yields.bind_any fun values => ?_
              refine (isIndexable_applyTableAccess access values).mono ?_
              intro value hvalue
              rw [hvalue]
              cases access with
              | get => rfl
              | has => rfl
          | vararg => exact hplain
          | range => exact Yields.bind_any fun _ => Yields.pure rfl

mutual

theorem callsBare_lower {env : Environment} (expr : Source.Expr) (hnames : env.CallsNames expr) :
    Yields (env.lower expr) fun value => value.CallsBare ↔ env.CallsNoOperation expr := by
  cases expr with
  | ident identifier =>
      simp only [lower]
      have hmem : identifier ∈ (Source.Expr.ident identifier).identifiers := by
        simp only [Source.Expr.identifiers, List.mem_singleton]
      refine (bare_lowerRead (hnames.defined _ hmem) (hnames.notBuiltin _ hmem)).mono ?_
      intro value hvalue
      exact iff_of_true hvalue.2 (callsNoOperation_ident identifier)
  | numeric | string =>
      simp only [lower]
      refine Yields.pure (iff_of_true ?_ ?_)
      · apply Lua.Expr.callsBare_of_callees_eq_nil
        rw [Lua.Expr.callees]
      · intro part hvisits
        cases hvisits
        rfl
  | spread inner span =>
      simp only [lower]
      split
      · next hvarargs =>
        refine Yields.pure (iff_of_true ?_ (callsNoOperation_spread_varargs hvarargs))
        apply Lua.Expr.callsBare_of_callees_eq_nil
        rw [Lua.Expr.callees]
      · next hvarargs =>
        rw [callsNoOperation_spread (Bool.eq_false_iff.mpr hvarargs)]
        refine Yields.bind (callsBare_lower inner hnames.ofOperand) ?_
        intro value hvalue
        refine Yields.bind env.bare_unpacker ?_
        intro function hfunction
        refine Yields.pure ?_
        simp only [Lua.Expr.callsBare_call, hfunction, Lua.Expr.callBare_cons,
          Lua.Expr.callBare_nil, true_and, and_true]
        exact hvalue
  | call callee arguments span =>
      have harguments := callsBare_lowerAll arguments hnames.ofArgument
      obtain ⟨hcallable, hcallee⟩ := hnames.ofCallee
      have hplain (hmarker : env.calleeMarker callee = none ∨
            env.calleeMarker callee = some .vararg) :
          Yields (do
            let function ← env.lower callee
            return Lua.Expr.call function (← env.lowerAll arguments))
          fun value => value.CallsBare ↔ env.CallsNoOperation (.call callee arguments span) := by
        refine Yields.bind ((isIndexable_lower hcallable hcallee).and
          (callsBare_lower callee hcallee)) ?_
        rintro function ⟨hindexable, hfunction⟩
        refine Yields.bind harguments ?_
        intro values hvalues
        refine Yields.pure ?_
        rw [Lua.Expr.callsBare_call, callsNoOperation_call_plain hmarker, hindexable, hfunction,
          hvalues, Bool.not_eq_true']
      simp only [lower]
      cases hmarker : env.calleeMarker callee with
      | none => exact hplain (Or.inl hmarker)
      | some marker =>
          cases marker with
          | multiReturn =>
              rw [callsNoOperation_call_marker hmarker rfl]
              refine Yields.bind harguments ?_
              intro values hvalues
              exact Yields.pure (Lua.Expr.callsBare_multiple.trans hvalues)
          | operator operator =>
              rw [callsNoOperation_call_marker hmarker rfl]
              simp only
              split
              · refine Yields.bind_any fun _ => Yields.bind harguments ?_
                intro values hvalues
                refine (callsBare_applyOperator operator).mono ?_
                intro value hvalue
                exact hvalue.trans hvalues
              · exact Yields.throw _
          | tableAccess access =>
              rw [callsNoOperation_call_marker hmarker rfl]
              refine Yields.bind harguments ?_
              intro values hvalues
              refine (callsBare_applyTableAccess access).mono ?_
              intro value hvalue
              exact hvalue.trans hvalues
          | vararg => exact hplain (Or.inr hmarker)
          | range =>
              exact Yields.bind_any fun _ => Yields.pure
                (iff_of_true (Lua.Expr.callsBare_ident _) (callsNoOperation_call_range hmarker))

theorem callsBare_lowerAll {env : Environment} (exprs : List Source.Expr)
    (hnames : ∀ expr ∈ exprs, env.CallsNames expr) :
    Yields (env.lowerAll exprs) fun values =>
      Lua.Expr.CallBare values ↔ ∀ expr ∈ exprs, env.CallsNoOperation expr := by
  cases exprs with
  | nil =>
      simp only [lowerAll]
      exact Yields.pure (iff_of_true Lua.Expr.callBare_nil (List.forall_mem_nil _))
  | cons first rest =>
      obtain ⟨hfirst, hrest⟩ := List.forall_mem_cons.mp hnames
      simp only [lowerAll]
      refine Yields.bind (callsBare_lower first hfirst) ?_
      intro value hvalue
      refine Yields.bind (callsBare_lowerAll rest hrest) ?_
      intro values hvalues
      refine Yields.pure ?_
      rw [Lua.Expr.callBare_cons, List.forall_mem_cons, hvalue, hvalues]

end

/-- All that is called in emitted code can be written without parentheses exactly if lowering comes
to no call of an operation. -/
theorem lower_callees_isIndexable_iff {env : Environment} {expr : Source.Expr} {value : Lua.Expr}
    {state after : UnitState}
    (hcallees : ∀ call ∈ expr.calls, call.1.isNameOrCall = true)
    (hdefined : ∀ identifier ∈ expr.identifiers, identifier.isUndefined = false)
    (hbuiltin : ∀ identifier ∈ expr.identifiers, ¬ env.IsBuiltinValue identifier)
    (hrun : (env.lower expr).outcome state = (.ok value, after)) :
    (∀ callee ∈ value.callees, callee.isIndexable = true) ↔
      ∀ callee arguments span, env.Visits expr (.call callee arguments span) →
        env.becomesOperation callee = false := by
  have hbare : value.CallsBare ↔ env.CallsNoOperation expr :=
    callsBare_lower expr ⟨hcallees, hdefined, hbuiltin⟩ hrun
  refine hbare.trans ⟨?_, ?_⟩
  · intro hcalls callee arguments span hvisits
    exact hcalls _ hvisits
  · intro hcalls part hvisits
    cases part with
    | call callee arguments span => exact hcalls callee arguments span hvisits
    | ident | spread | numeric | string => rfl

def summing : Environment :=
  ofProgram (Program.build
    [.file "main.ts" true, .library .extensions "LuaAddition", .declare ⟨0⟩ "a" {},
      .declare ⟨0⟩ "b" {}, .declare ⟨0⟩ "c" {}, .reference ⟨0⟩ "LuaAddition", .reference ⟨1⟩ "a",
      .reference ⟨2⟩ "b", .reference ⟨3⟩ "c"])

def addition : Source.Expr :=
  .ident { node := ⟨0⟩, text := "LuaAddition", span := .ofLength 0 11 }

def firstTerm : Source.Expr := .ident { node := ⟨1⟩, text := "a", span := .ofLength 12 1 }

def secondTerm : Source.Expr := .ident { node := ⟨2⟩, text := "b", span := .ofLength 14 1 }

def sumArgument : Source.Expr := .ident { node := ⟨3⟩, text := "c", span := .ofLength 16 1 }

/-- A sum that is called. -/
def calledSum : Source.Expr :=
  .call (.call addition [firstTerm, secondTerm] (.ofLength 0 11)) [sumArgument] (.ofLength 0 11)

/-- A sum whose second term is called. -/
def sumOfCall : Source.Expr :=
  .call addition [firstTerm, .call secondTerm [sumArgument] (.ofLength 14 1)] (.ofLength 0 11)

/-- A sum that is called is written like a sum whose second term is called. -/
theorem calledSum_reads_as_sumOfCall :
    ∃ value after value' after', (summing.lower calledSum).outcome {} = (.ok value, after) ∧
      (summing.lower sumOfCall).outcome {} = (.ok value', after') ∧
      (¬ ∀ callee ∈ value.callees, callee.isIndexable = true) ∧
      (∀ callee ∈ value'.callees, callee.isIndexable = true) ∧ value.text = value'.text := by
  have hbuiltin (identifier : Identifier) : ¬ summing.IsBuiltinValue identifier := by
    intro hvalue
    obtain ⟨symbol, value, _, hvalue⟩ := hvalue
    cases hvalue
  obtain ⟨value, after, hrun, htext⟩ : ∃ value after,
      (summing.lower calledSum).outcome {} = (.ok value, after) ∧ value.text = "a + b(c)" :=
    ⟨_, _, rfl, by decide⟩
  obtain ⟨value', after', hrun', htext'⟩ : ∃ value after,
      (summing.lower sumOfCall).outcome {} = (.ok value, after) ∧ value.text = "a + b(c)" :=
    ⟨_, _, rfl, by decide⟩
  have hiff := lower_callees_isIndexable_iff (by decide) (by decide) (fun _ _ => hbuiltin _) hrun
  have hiff' := lower_callees_isIndexable_iff (by decide) (by decide) (fun _ _ => hbuiltin _) hrun'
  refine ⟨value, after, value', after', hrun, hrun', ?_, ?_, htext.trans htext'.symm⟩
  · rw [hiff]
    intro hcalls
    exact absurd (hcalls _ _ _ (.self _)) (by decide)
  · rw [hiff']
    have hcalls : summing.CallsNoOperation sumOfCall := by
      rw [sumOfCall, callsNoOperation_call_marker rfl rfl, List.forall_mem_cons,
        List.forall_mem_singleton, callsNoOperation_call_plain (Or.inl rfl),
        List.forall_mem_singleton]
      exact ⟨callsNoOperation_ident _, rfl, callsNoOperation_ident _, callsNoOperation_ident _⟩
    intro callee arguments span hvisits
    exact hcalls _ hvisits

end Environment

end LuaLowering
