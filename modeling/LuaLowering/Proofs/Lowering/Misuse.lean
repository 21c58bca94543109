import LuaLowering.Proofs.Lowering.Gathering
import LuaLowering.Proofs.Lowering.Names
import LuaLowering.Proofs.Occurrence

namespace LuaLowering

/-! Markers outside their positions.  Lowering recognises a marker in three places: where it is
called, where it is spread and where it is read; between them they miss no occurrence and report
none that is allowed. -/

namespace Lower

variable {α β : Type} {selected : Diagnostic → Bool}

/-- Unless it fails, what the step reports is, of the selected diagnostics, the given list. -/
def Reports (selected : Diagnostic → Bool) (step : Lower α) (reported : List Diagnostic) : Prop :=
  ∀ ⦃state value after⦄, outcome step state = (.ok value, after) →
    after.log.entries.filter selected = state.log.entries.filter selected ++ reported

namespace Reports

variable {step : Lower α} {next : α → Lower β} {first second reported : List Diagnostic}

theorem pure (value : α) : Reports selected (Pure.pure value : Lower α) [] := by
  intro state returned after hrun
  cases hrun
  exact (List.append_nil _).symm

theorem throw (error : LoweringError) (reported : List Diagnostic) :
    Reports selected (MonadExcept.throw error : Lower α) reported := by
  intro state returned after hrun
  cases hrun

theorem bind (hstep : Reports selected step first)
    (hnext : ∀ value, Reports selected (next value) second) :
    Reports selected (step >>= next) (first ++ second) := by
  intro state result after hrun
  obtain ⟨value, between, hfirst, hsecond⟩ := outcome_bind_eq_ok.mp hrun
  rw [hnext value hsecond, hstep hfirst, List.append_assoc]

theorem silent_bind (hstep : Reports selected step [])
    (hnext : ∀ value, Reports selected (next value) reported) :
    Reports selected (step >>= next) reported :=
  bind hstep hnext

theorem bind_silent (hstep : Reports selected step reported)
    (hnext : ∀ value, Reports selected (next value) []) :
    Reports selected (step >>= next) reported := by
  have hbind := bind hstep hnext
  rwa [List.append_nil] at hbind

theorem require (feature : Feature) : Reports selected (Lower.require feature) [] := by
  intro state returned after hrun
  cases hrun
  exact (List.append_nil _).symm

theorem identify (symbol : Symbol) (span : Span) :
    Reports selected (Lower.identify symbol span) [] := by
  intro state returned after hrun
  rw [outcome_identify] at hrun
  obtain ⟨_, rfl⟩ := Prod.mk.inj hrun
  exact (List.append_nil _).symm

theorem report (env : Environment) (span : Span) (problem : Problem) :
    Reports selected (env.report span problem)
      ([Diagnostic.located env.unit span problem].filter selected) := by
  intro state returned after hrun
  cases hrun
  exact List.filter_append _ _

end Reports

theorem Keeps.reports {step : Lower α} (hstep : Keeps step) : Reports selected step [] := by
  intro state value after hrun
  have hafter := hstep state
  rw [hrun] at hafter
  rw [List.append_nil, show after = state from hafter]

end Lower

def Problem.isMisuse : Problem → Bool
  | multiReturnMisuse => true
  | operatorMisuse => true
  | tableAccessMisuse => true
  | varargMisuse => true
  | rangeMisuse => true
  | _ => false

def Diagnostic.isMisuse (diagnostic : Diagnostic) : Bool := diagnostic.problem.isMisuse

theorem Marker.isMisuse_misuse (marker : Marker) : marker.misuse.isMisuse = true := by
  cases marker <;> rfl

namespace Environment

open Lower

variable (env : Environment)

/-! Identifiers. -/

/-- The complaint about the marker that an identifier may carry. -/
def complaint (span : Span) (marker : Option Marker) : List Diagnostic :=
  marker.toList.map fun marker => .located env.unit span marker.misuse

theorem reports_misuse (span : Span) (marker : Marker) :
    Reports Diagnostic.isMisuse (env.report span marker.misuse)
      (env.complaint span (some marker)) := by
  have hreport : Reports Diagnostic.isMisuse _ _ := .report env span marker.misuse
  have hselected : (Diagnostic.located env.unit span marker.misuse).isMisuse = true :=
    marker.isMisuse_misuse
  rwa [List.filter_cons_of_pos hselected] at hreport

theorem silent_mustMangle (identifier : Identifier) (symbol : Option Symbol) :
    Reports Diagnostic.isMisuse (env.mustMangle identifier symbol) [] := by
  cases symbol with
  | none => exact .pure _
  | some symbol =>
      simp only [mustMangle]
      split
      · split
        · exact .pure _
        · exact .silent_bind (.report env _ _) fun _ => .pure _
      · exact .pure _

theorem reports_reportNotes (identifier : Identifier) (notes : Notes) :
    Reports Diagnostic.isMisuse (env.reportNotes identifier notes)
      (env.complaint identifier.span notes.misplaced) := by
  obtain ⟨misplaced, deprecated⟩ := notes
  have hdeprecated :
      Reports Diagnostic.isMisuse (env.reportNotes identifier ⟨none, deprecated⟩) [] := by
    cases deprecated with
    | none => exact .pure _
    | some tag => exact .report env _ _
  cases misplaced with
  | none => exact hdeprecated
  | some marker => exact .bind_silent (env.reports_misuse _ marker) fun _ => hdeprecated

theorem silent_requireTypeFeature (type : Ty) :
    Reports Diagnostic.isMisuse (env.requireTypeFeature type) [] := by
  unfold requireTypeFeature
  split
  · exact .require _
  · exact .pure _

theorem silent_identifyAll (symbol : Option Symbol) (span : Span) :
    Reports Diagnostic.isMisuse (identifyAll symbol span) [] := by
  cases symbol with
  | none => exact .pure _
  | some symbol => exact .silent_bind (.identify symbol span) fun _ => .pure _

theorem silent_lowerName (identifier : Identifier) (symbol : Option Symbol) :
    Reports Diagnostic.isMisuse (env.lowerName identifier symbol) [] :=
  .silent_bind (env.silent_mustMangle identifier symbol) fun _ =>
    .silent_bind (silent_identifyAll symbol identifier.span) fun _ => .pure _

theorem reports_lowerIdentifier {identifier : Identifier}
    (hchain : identifier.continuesChain = true → env.markerOf identifier = none) :
    Reports Diagnostic.isMisuse (env.lowerIdentifier identifier)
      (env.complaint identifier.span (env.markerOf identifier)) := by
  have hspec := env.classifies_classify identifier
  unfold lowerIdentifier
  generalize env.classify identifier = kind at hspec ⊢
  cases hspec with
  | continuation hcontinues =>
      rw [hchain hcontinues]
      exact .pure _
  | marker _ hmarker _ =>
      rw [hmarker]
      exact .bind_silent (env.reports_misuse _ _) fun _ => .pure _
  | builtin =>
      exact .bind_silent (env.reports_reportNotes identifier (env.notesOf identifier)) fun _ =>
        .silent_bind (.require _) fun _ => .pure _
  | standard =>
      exact .bind_silent (env.reports_reportNotes identifier (env.notesOf identifier)) fun _ =>
        .silent_bind (env.silent_requireTypeFeature _) fun _ => env.silent_lowerName identifier _

theorem silent_lowerBuiltinValue (identifier : Identifier) :
    Reports Diagnostic.isMisuse (env.lowerBuiltinValue identifier) [] := by
  unfold lowerBuiltinValue
  cases env.checker.symbolAt identifier.node with
  | none => exact .pure _
  | some symbol =>
      simp only
      split
      · exact .pure _
      · exact .pure _
      · exact .pure _
      · exact .silent_bind (.identify symbol _) fun _ => .pure _

theorem silent_lowerExport (identifier : Identifier) (symbol : Symbol) (path : ExportPath) :
    Reports Diagnostic.isMisuse (env.lowerExport identifier symbol path) [] :=
  .silent_bind (env.silent_mustMangle identifier (some symbol)) fun _ =>
    .silent_bind (.identify symbol _) fun _ => .pure _

/-- Nothing that a read looks at before the marker applies to the identifier. -/
structure ReachesMarker (identifier : Identifier) : Prop where
  notExported {symbol : Symbol} {path : ExportPath} :
    env.checker.symbolAt identifier.node = some symbol →
      env.checker.exportPath symbol ≠ .ok (some path)
  notContinued : identifier.continuesChain = false
  notUndefined : identifier.isUndefined = false
  notBuiltin {symbol : Symbol} :
    env.checker.symbolAt identifier.node = some symbol →
      env.bindings.builtins.value? env.checker symbol = none

variable {env}

theorem ReachesMarker.exportOf_ne {identifier : Identifier}
    (hreaches : env.ReachesMarker identifier) (found : Symbol × ExportPath) :
    env.exportOf identifier ≠ .ok (some found) := by
  unfold exportOf
  cases hsymbol : env.checker.symbolAt identifier.node with
  | none => simp
  | some symbol =>
      simp only
      cases hpath : env.checker.exportPath symbol with
      | error error => simp [Except.map]
      | ok path =>
          cases path with
          | none => simp [Except.map]
          | some path => exact absurd hpath (hreaches.notExported hsymbol)

theorem ReachesMarker.lowerBuiltinValue_eq {identifier : Identifier}
    (hreaches : env.ReachesMarker identifier) : env.lowerBuiltinValue identifier = pure none := by
  unfold lowerBuiltinValue
  cases hsymbol : env.checker.symbolAt identifier.node with
  | none => rfl
  | some symbol => simp only [hreaches.notBuiltin hsymbol]

theorem reports_lowerRead {identifier : Identifier}
    (hreaches : (env.markerOf identifier).isSome → env.ReachesMarker identifier) :
    Reports Diagnostic.isMisuse (env.lowerRead identifier)
      (env.complaint identifier.span (env.markerOf identifier)) := by
  cases hmarker : env.markerOf identifier with
  | none =>
      have hsilent : Reports Diagnostic.isMisuse (env.lowerIdentifier identifier) _ :=
        env.reports_lowerIdentifier fun _ => hmarker
      rw [hmarker] at hsilent
      unfold lowerRead
      split
      · exact .throw _ _
      · exact env.silent_lowerExport identifier _ _
      · split
        · exact .pure _
        · apply Reports.silent_bind (env.silent_lowerBuiltinValue identifier)
          intro found
          cases found with
          | some value => exact .pure _
          | none => exact .bind_silent hsilent fun _ => .pure _
  | some marker =>
      have hreaches := hreaches (by rw [hmarker]; rfl)
      have hreports : Reports Diagnostic.isMisuse (env.lowerIdentifier identifier) _ :=
        env.reports_lowerIdentifier fun hcontinues =>
          absurd (hcontinues.symm.trans hreaches.notContinued) Bool.noConfusion
      rw [hmarker] at hreports
      unfold lowerRead
      split
      · exact .throw _ _
      · next hexport => exact absurd hexport (hreaches.exportOf_ne _)
      · rw [hreaches.notUndefined, hreaches.lowerBuiltinValue_eq, pure_bind]
        exact .bind_silent hreports fun _ => .pure _

end Environment

/-! Roles. -/

namespace Source

inductive Role where
  | callee
  | operand
  | value
deriving DecidableEq, Repr

namespace Expr

mutual

/-- The identifiers that occur in an expression, each in its role. -/
def occurrences (role : Role) : Expr → List (Role × Identifier)
  | .ident identifier => [(role, identifier)]
  | .call callee arguments _ => occurrences .callee callee ++ occurrencesAll arguments
  | .spread inner _ => occurrences .operand inner
  | .numeric .. => []
  | .string .. => []

def occurrencesAll : List Expr → List (Role × Identifier)
  | [] => []
  | first :: rest => occurrences .value first ++ occurrencesAll rest

end

end Expr

end Source

def Marker.isSanctionedAt : Marker → Source.Role → Bool
  | multiReturn, .callee => true
  | operator _, .callee => true
  | tableAccess _, .callee => true
  | vararg, .operand => true
  | _, _ => false

namespace Environment

open Lower
open Source (Role)

variable (env : Environment)

def Sanctions (role : Role) (identifier : Identifier) : Prop :=
  ∀ marker, env.markerOf identifier = some marker → marker.isSanctionedAt role

mutual

/-- The misuses in an expression, in the order in which they are met.  The arguments of a range
that no loop runs over are not looked at. -/
def misuses (env : Environment) (role : Role) : Source.Expr → List Diagnostic
  | .ident identifier =>
      env.complaint identifier.span
        ((env.markerOf identifier).filter fun marker => !marker.isSanctionedAt role)
  | .call callee arguments span =>
      if env.calleeMarker callee = some .range then env.complaint span (some .range)
      else env.misuses .callee callee ++ env.misusesAll arguments
  | .spread inner _ => env.misuses .operand inner
  | .numeric .. => []
  | .string .. => []

def misusesAll (env : Environment) : List Source.Expr → List Diagnostic
  | [] => []
  | first :: rest => env.misuses .value first ++ env.misusesAll rest

end

theorem complaint_eq_nil_iff (span : Span) (marker : Option Marker) :
    env.complaint span marker = [] ↔ marker = none := by
  simp only [complaint, List.map_eq_nil_iff, Option.toList_eq_nil_iff]

theorem misuses_ident_eq_nil_iff (role : Role) (identifier : Identifier) :
    env.misuses role (.ident identifier) = [] ↔ env.Sanctions role identifier := by
  simp only [misuses, complaint_eq_nil_iff, Option.filter_eq_none_iff, Sanctions,
    Bool.not_eq_true', Bool.not_eq_false]

theorem exists_of_calleeMarker {callee : Source.Expr} {marker : Marker}
    (hmarker : env.calleeMarker callee = some marker) :
    ∃ identifier, callee = .ident identifier ∧ env.markerOf identifier = some marker := by
  cases callee with
  | ident identifier => exact ⟨identifier, rfl, hmarker⟩
  | call | spread | numeric | string => cases hmarker

theorem misuses_sanctioned_callee {callee : Source.Expr} {marker : Marker}
    (hmarker : env.calleeMarker callee = some marker)
    (hsanctioned : marker.isSanctionedAt .callee) :
    env.misuses .callee callee = [] := by
  obtain ⟨identifier, rfl, hmarker⟩ := env.exists_of_calleeMarker hmarker
  rw [misuses_ident_eq_nil_iff]
  intro other hother
  cases hmarker.symm.trans hother
  exact hsanctioned

mutual

theorem misuses_eq_nil_iff (env : Environment) (role : Role) (expr : Source.Expr) :
    env.misuses role expr = [] ↔
      ∀ occurrence ∈ expr.occurrences role, env.Sanctions occurrence.1 occurrence.2 := by
  cases expr with
  | ident identifier =>
      rw [misuses_ident_eq_nil_iff]
      simp only [Source.Expr.occurrences, List.forall_mem_singleton]
  | call callee arguments span =>
      simp only [misuses, Source.Expr.occurrences, List.forall_mem_append]
      rw [← env.misuses_eq_nil_iff .callee callee, ← env.misusesAll_eq_nil_iff arguments]
      split
      · -- Nothing is said about the arguments: the range itself is already misused.
        next hrange =>
        obtain ⟨identifier, rfl, hmarker⟩ := env.exists_of_calleeMarker hrange
        rw [complaint_eq_nil_iff, misuses_ident_eq_nil_iff]
        constructor
        · intro hnone
          cases hnone
        · intro hsanctions
          cases hsanctions.1 .range hmarker
      · exact List.append_eq_nil_iff
  | spread inner span =>
      simp only [misuses, Source.Expr.occurrences]
      exact env.misuses_eq_nil_iff .operand inner
  | numeric value span => simp [misuses, Source.Expr.occurrences]
  | string value span => simp [misuses, Source.Expr.occurrences]

theorem misusesAll_eq_nil_iff (env : Environment) (exprs : List Source.Expr) :
    env.misusesAll exprs = [] ↔
      ∀ occurrence ∈ Source.Expr.occurrencesAll exprs,
        env.Sanctions occurrence.1 occurrence.2 := by
  cases exprs with
  | nil => simp [misusesAll, Source.Expr.occurrencesAll]
  | cons first rest =>
      simp only [misusesAll, Source.Expr.occurrencesAll, List.forall_mem_append]
      rw [List.append_eq_nil_iff, env.misuses_eq_nil_iff .value first,
        env.misusesAll_eq_nil_iff rest]

end

/-! Expressions. -/

theorem silent_reportUnsupported (operator : MappedOperator) (span : Span) :
    Reports Diagnostic.isMisuse (env.reportUnsupported operator span) [] := by
  simp only [reportUnsupported]
  split
  · exact .pure _
  · exact .report env _ _

theorem silent_unpacker : Reports Diagnostic.isMisuse env.unpacker [] := by
  unfold unpacker
  split
  · exact .pure _
  · exact .silent_bind (.require _) fun _ => .pure _

def ReachesMarkers (identifiers : List Identifier) : Prop :=
  ∀ identifier ∈ identifiers, (env.markerOf identifier).isSome → env.ReachesMarker identifier

/-- An identifier is lowered as a value only where its marker is not sanctioned. -/
def IsRead (role : Role) (expr : Source.Expr) : Prop :=
  ∀ identifier marker, expr = .ident identifier → env.markerOf identifier = some marker →
    marker.isSanctionedAt role = false

variable {env}

theorem isRead_value (expr : Source.Expr) : env.IsRead .value expr := by
  intro identifier marker _ _
  cases marker <;> rfl

theorem isRead_callee {callee : Source.Expr}
    (hmarker : env.calleeMarker callee = none ∨ env.calleeMarker callee = some .vararg) :
    env.IsRead .callee callee := by
  intro identifier marker hcallee hidentifier
  subst hcallee
  have hcallee : env.calleeMarker (.ident identifier) = some marker := hidentifier
  rw [hcallee] at hmarker
  rcases hmarker with hnone | hvararg
  · cases hnone
  · cases hvararg
    rfl

theorem isRead_operand {inner : Source.Expr} (hvarargs : env.isVarargs inner = false) :
    env.IsRead .operand inner := by
  intro identifier marker hinner hidentifier
  subst hinner
  cases marker with
  | vararg =>
      simp only [isVarargs, hidentifier] at hvarargs
      cases hvarargs
  | multiReturn | operator | tableAccess | range => rfl

theorem misuses_vararg_operand {inner : Source.Expr} (hvarargs : env.isVarargs inner = true) :
    env.misuses .operand inner = [] := by
  cases inner with
  | ident identifier =>
      have hmarker : env.markerOf identifier = some .vararg := of_decide_eq_true hvarargs
      rw [misuses_ident_eq_nil_iff]
      intro marker hother
      cases hmarker.symm.trans hother
      rfl
  | call | spread | numeric | string => cases hvarargs

theorem misuses_ident_of_isRead {role : Role} {identifier : Identifier}
    (hread : env.IsRead role (.ident identifier)) :
    env.misuses role (.ident identifier) =
      env.complaint identifier.span (env.markerOf identifier) := by
  simp only [misuses]
  cases hmarker : env.markerOf identifier with
  | none => rfl
  | some marker => rw [Option.filter_some, hread identifier marker rfl hmarker]; rfl

mutual

theorem reports_lower {env : Environment} {role : Role} (expr : Source.Expr)
    (hreaches : env.ReachesMarkers expr.identifiers) (hread : env.IsRead role expr) :
    Reports Diagnostic.isMisuse (env.lower expr) (env.misuses role expr) := by
  cases expr with
  | ident identifier =>
      rw [misuses_ident_of_isRead hread]
      simp only [lower]
      apply reports_lowerRead
      apply hreaches
      simp only [Source.Expr.identifiers, List.mem_singleton]
  | numeric value span =>
      simp only [lower, misuses]
      exact .pure _
  | string value span =>
      simp only [lower, misuses]
      exact .pure _
  | spread inner span =>
      simp only [Source.Expr.identifiers] at hreaches
      simp only [lower, misuses]
      split
      · next hvarargs =>
        rw [misuses_vararg_operand hvarargs]
        exact .pure _
      · next hvarargs =>
        have hread := isRead_operand (Bool.eq_false_iff.mpr hvarargs)
        exact .bind_silent (reports_lower inner hreaches hread) fun _ =>
          .silent_bind env.silent_unpacker fun _ => .pure _
  | call callee arguments span =>
      simp only [Source.Expr.identifiers, ReachesMarkers, List.forall_mem_append] at hreaches
      obtain ⟨hcallee, harguments⟩ := hreaches
      have hreports := reports_lowerAll arguments harguments
      have hplain (hread : env.IsRead .callee callee) :
          Reports Diagnostic.isMisuse (do
              let function ← env.lower callee
              return Lua.Expr.call function (← env.lowerAll arguments))
            (env.misuses .callee callee ++ env.misusesAll arguments) :=
        .bind (reports_lower callee hcallee hread) fun _ => .bind_silent hreports fun _ => .pure _
      simp only [lower, misuses]
      cases hmarker : env.calleeMarker callee with
      | none => exact hplain (isRead_callee (.inl hmarker))
      | some marker =>
          cases marker with
          | multiReturn =>
              rw [env.misuses_sanctioned_callee hmarker rfl]
              exact .bind_silent hreports fun _ => .pure _
          | operator operator =>
              rw [env.misuses_sanctioned_callee hmarker rfl]
              simp only
              split
              · exact .silent_bind (env.silent_reportUnsupported operator span) fun _ =>
                  .bind_silent hreports fun values => (keeps_applyOperator operator values).reports
              · exact .throw _ _
          | tableAccess access =>
              rw [env.misuses_sanctioned_callee hmarker rfl]
              exact .bind_silent hreports fun values =>
                (keeps_applyTableAccess access values).reports
          | vararg => exact hplain (isRead_callee (.inr hmarker))
          | range => exact .bind_silent (env.reports_misuse span .range) fun _ => .pure _

theorem reports_lowerAll {env : Environment} (exprs : List Source.Expr)
    (hreaches : env.ReachesMarkers (Source.Expr.identifiersAll exprs)) :
    Reports Diagnostic.isMisuse (env.lowerAll exprs) (env.misusesAll exprs) := by
  cases exprs with
  | nil =>
      simp only [lowerAll, misusesAll]
      exact .pure _
  | cons first rest =>
      simp only [Source.Expr.identifiersAll, ReachesMarkers, List.forall_mem_append] at hreaches
      simp only [lowerAll, misusesAll]
      exact .bind (reports_lower first hreaches.1 (isRead_value first)) fun _ =>
        .bind_silent (reports_lowerAll rest hreaches.2) fun _ => .pure _

end

/-- A lowering complains about no marker just if every marker stands where it may. -/
theorem lower_misuse_free_iff {expr : Source.Expr} {state after : UnitState} {value : Lua.Expr}
    (hrun : (env.lower expr).outcome state = (.ok value, after))
    (hreaches : ∀ identifier ∈ expr.identifiers,
      (env.markerOf identifier).isSome → env.ReachesMarker identifier) :
    ∃ pushed, after.log.entries = state.log.entries ++ pushed ∧
      ((∀ diagnostic ∈ pushed, ¬ diagnostic.isMisuse) ↔
        ∀ occurrence ∈ expr.occurrences .value,
          env.Sanctions occurrence.1 occurrence.2) := by
  have hgathers := env.onlyGathers_lower expr state
  rw [hrun] at hgathers
  obtain ⟨pushed, hpushed⟩ := hgathers.exists_reports
  refine ⟨pushed, hpushed, ?_⟩
  have hreports := reports_lower expr hreaches (isRead_value expr) hrun
  rw [hpushed, List.filter_append] at hreports
  rw [← List.filter_eq_nil_iff, List.append_cancel_left hreports]
  exact env.misuses_eq_nil_iff .value expr

def packing : Environment :=
  ofProgram (Program.build
    [.file "main.ts" true, .library .extensions "LuaAddition", .library .extensions "$multi",
      .library .extensions "$vararg", .reference ⟨0⟩ "LuaAddition", .reference ⟨1⟩ "$multi",
      .reference ⟨2⟩ "$vararg", .reference ⟨1⟩ "$multi"])

/-- A sum of what `$multi` makes of the varargs, which may stand there, and of a spread `$multi`,
which may not. -/
def packedSum : Source.Expr :=
  .call (.ident { node := ⟨0⟩, text := "LuaAddition", span := .ofLength 0 11 })
    [.call (.ident { node := ⟨1⟩, text := "$multi", span := .ofLength 12 6 })
        [.spread (.ident { node := ⟨2⟩, text := "$vararg", span := .ofLength 22 7 })
          (.ofLength 19 10)] (.ofLength 12 18),
      .spread (.ident { node := ⟨3⟩, text := "$multi", span := .ofLength 35 6 })
        (.ofLength 32 9)] (.ofLength 0 42)

theorem lower_misuse_free_iff_packedSum :
    ∃ value after, (packing.lower packedSum).outcome {} = (.ok value, after) ∧
      after.log.entries = [.located ⟨0⟩ (.ofLength 35 6) .multiReturnMisuse] ∧
      ¬ ∀ occurrence ∈ packedSum.occurrences .value,
        packing.Sanctions occurrence.1 occurrence.2 := by
  have hreaches : ∀ identifier ∈ packedSum.identifiers,
      (packing.markerOf identifier).isSome → packing.ReachesMarker identifier := by
    intro identifier hmem _
    simp only [packedSum, Source.Expr.identifiers, Source.Expr.identifiersAll, List.append_nil,
      List.cons_append, List.nil_append, List.mem_cons, List.not_mem_nil, or_false] at hmem
    rcases hmem with rfl | rfl | rfl | rfl
    all_goals
      refine ⟨?_, rfl, by decide, ?_⟩
      · intro symbol path hsymbol
        cases hsymbol
        exact nofun
      · intro symbol hsymbol
        cases hsymbol
        rfl
  obtain ⟨value, after, hrun, hentries⟩ : ∃ value after,
      (packing.lower packedSum).outcome {} = (.ok value, after) ∧
        after.log.entries = [.located ⟨0⟩ (.ofLength 35 6) .multiReturnMisuse] :=
    ⟨_, _, rfl, rfl⟩
  obtain ⟨pushed, hpushed, hiff⟩ := lower_misuse_free_iff hrun hreaches
  have hpushed : after.log.entries = pushed := hpushed
  refine ⟨value, after, hrun, hentries, ?_⟩
  rw [← hiff, ← hpushed, hentries]
  intro hfree
  exact hfree _ List.mem_cons_self rfl

end Environment

end LuaLowering
