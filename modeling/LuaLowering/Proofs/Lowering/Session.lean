import LuaLowering.Proofs.Identity.History
import LuaLowering.Proofs.Lowering.Gathering
import LuaLowering.Proofs.Lowering.Names

namespace LuaLowering

/-! Many calls on one state, one after the other.  A call that fails leaves its state to the next
one. -/

inductive LoweringCall where
  | identifier (identifier : Identifier)
  | read (identifier : Identifier)
  | expr (expr : Source.Expr)
  | iterable (iterable : Source.Expr)

inductive Lowered where
  | word (word : Lua.Ident)
  | value (value : Lua.Expr)

namespace UnitState

variable {state later : UnitState}

/-- The table has been used some more times. -/
theorem Gathers.exists_uses (hgathers : state.Gathers later) :
    ∃ uses, later.identities = state.identities.after uses := by
  induction hgathers with
  | refl => exact ⟨[], rfl⟩
  | tail _ hchange ih =>
      obtain ⟨uses, huses⟩ := ih
      cases hchange with
      | report => exact ⟨uses, huses⟩
      | require => exact ⟨uses, huses⟩
      | identify symbol span =>
          refine ⟨uses ++ [⟨symbol, some span⟩], ?_⟩
          rw [IdentityTable.after_append, ← huses]
          rfl

theorem Gathers.extends_identities (hgathers : state.Gathers later) :
    state.identities.Extends later.identities := by
  obtain ⟨uses, huses⟩ := hgathers.exists_uses
  rw [huses]
  exact IdentityTable.extends_after _ uses

theorem Gathers.wellFormed_identities (hgathers : state.Gathers later)
    (hwell : state.identities.WellFormed) : later.identities.WellFormed := by
  obtain ⟨uses, huses⟩ := hgathers.exists_uses
  rw [huses]
  exact hwell.after uses

end UnitState

theorem Lower.lookup?_of_outcome_identify {symbol : Symbol} {span : Span}
    {state after : UnitState} {identity : Identity}
    (hrun : (Lower.identify symbol span).outcome state = (.ok identity, after)) :
    after.identities.lookup? symbol = some identity := by
  have hstep := state.identities.identifies symbol (some span)
  rw [outcome_identify] at hrun
  generalize state.identities.identify symbol (some span) = result at hstep hrun
  obtain ⟨answer, next⟩ := result
  cases hrun
  exact hstep.lookup?_eq

namespace Environment

open Lower

def perform (env : Environment) : LoweringCall → Lower Lowered
  | .identifier identifier => return .word (← env.lowerIdentifier identifier)
  | .read identifier => return .value (← env.lowerRead identifier)
  | .expr expr => return .value (← env.lower expr)
  | .iterable iterable => return .value (← env.lowerIterable iterable)

def after (env : Environment) (state : UnitState) (calls : List LoweringCall) : UnitState :=
  calls.foldl (fun state call => ((env.perform call).outcome state).2) state

/-- The answers to the calls, each beside its call. -/
def answers (env : Environment) :
    UnitState → List LoweringCall → List (LoweringCall × Except LoweringError Lowered)
  | _, [] => []
  | state, call :: rest =>
      (call, ((env.perform call).outcome state).1) ::
        env.answers ((env.perform call).outcome state).2 rest

theorem onlyGathers_perform (env : Environment) (call : LoweringCall) :
    OnlyGathers (env.perform call) := by
  cases call with
  | identifier identifier =>
      exact .bind (env.onlyGathers_lowerIdentifier identifier) fun _ => .pure _
  | read identifier => exact .bind (env.onlyGathers_lowerRead identifier) fun _ => .pure _
  | expr expr => exact .bind (env.onlyGathers_lower expr) fun _ => .pure _
  | iterable iterable => exact .bind (env.onlyGathers_lowerIterable iterable) fun _ => .pure _

theorem gathers_after (env : Environment) (state : UnitState) (calls : List LoweringCall) :
    state.Gathers (env.after state calls) := by
  induction calls generalizing state with
  | nil => exact .refl
  | cons call calls ih => exact (env.onlyGathers_perform call state).trans (ih _)

/-! The identity of a lowered identifier. -/

/-- What an identifier may carry: the identity of temporaries in a chain, and elsewhere the one
that the table has for its symbol, or none. -/
inductive Carries (env : Environment) (identifier : Identifier) (table : IdentityTable) :
    Option Identity → Prop
  | temporary (hchain : identifier.continuesChain = true) :
      Carries env identifier table (some .temporary)
  | bound {symbol : Symbol} {identity : Identity} (hchain : identifier.continuesChain = false)
      (hsymbol : env.checker.symbolAt identifier.node = some symbol)
      (hlookup : table.lookup? symbol = some identity) :
      Carries env identifier table (some identity)
  | nothing (hchain : identifier.continuesChain = false) : Carries env identifier table none

theorem Carries.mono {env : Environment} {identifier : Identifier} {table later : IdentityTable}
    {identity : Option Identity} (hcarries : env.Carries identifier table identity)
    (hextends : table.Extends later) : env.Carries identifier later identity := by
  cases hcarries with
  | temporary hchain => exact .temporary hchain
  | bound hchain hsymbol hlookup => exact .bound hchain hsymbol (hextends.lookup?_eq hlookup)
  | nothing hchain => exact .nothing hchain

section Carried

variable {env : Environment} {identifier : Identifier} {state last : UnitState} {word : Lua.Ident}

theorem carries_lowerName (hchain : identifier.continuesChain = false)
    (hrun : (env.lowerName identifier (env.checker.symbolAt identifier.node)).outcome state =
      (.ok word, last)) : env.Carries identifier last.identities word.identity := by
  obtain ⟨mangled, between, _, hrest⟩ := outcome_bind_eq_ok.mp hrun
  obtain ⟨identity, final, hidentify, hword⟩ := outcome_bind_eq_ok.mp hrest
  cases hword
  cases hsymbol : env.checker.symbolAt identifier.node with
  | none =>
      rw [hsymbol] at hidentify
      cases hidentify
      exact .nothing hchain
  | some symbol =>
      rw [hsymbol] at hidentify
      obtain ⟨given, _, hgiven, hpure⟩ := outcome_bind_eq_ok.mp hidentify
      cases hpure
      exact .bound hchain hsymbol (lookup?_of_outcome_identify hgiven)

theorem carries_lowerIdentifier
    (hrun : (env.lowerIdentifier identifier).outcome state = (.ok word, last)) :
    env.Carries identifier last.identities word.identity := by
  have hkind := env.classifies_classify identifier
  rw [lowerIdentifier] at hrun
  generalize env.classify identifier = kind at hkind hrun
  cases hkind with
  | continuation hchain =>
      cases hrun
      exact .temporary hchain
  | marker hchain =>
      obtain ⟨_, _, _, hword⟩ := outcome_bind_eq_ok.mp hrun
      cases hword
      exact .nothing hchain
  | builtin hchain =>
      obtain ⟨_, _, _, hrest⟩ := outcome_bind_eq_ok.mp hrun
      obtain ⟨_, _, _, hword⟩ := outcome_bind_eq_ok.mp hrest
      cases hword
      exact .nothing hchain
  | standard hchain =>
      obtain ⟨_, _, _, hrest⟩ := outcome_bind_eq_ok.mp hrun
      obtain ⟨_, _, _, hname⟩ := outcome_bind_eq_ok.mp hrest
      exact carries_lowerName hchain hname

theorem carries_of_mem_answers {calls : List LoweringCall}
    (hmem : (.identifier identifier, .ok (.word word)) ∈ env.answers state calls) :
    env.Carries identifier (env.after state calls).identities word.identity := by
  induction calls generalizing state with
  | nil => cases hmem
  | cons call calls ih =>
      rcases List.mem_cons.mp hmem with hfirst | hrest
      · obtain ⟨rfl, hanswer⟩ := Prod.mk.inj hfirst
        obtain ⟨_, _, hrun, hword⟩ := outcome_bind_eq_ok.mp (Prod.ext hanswer.symm rfl)
        cases hword
        exact (carries_lowerIdentifier hrun).mono (env.gathers_after _ calls).extends_identities
      · exact ih hrest

end Carried

section Followed

variable {env : Environment} {table : IdentityTable} {first second : Identifier}
  {identity : Identity} {carried : Option Identity}

theorem Carries.eq_temporary_iff (hwell : table.WellFormed)
    (hcarries : env.Carries first table carried) :
    carried = some .temporary ↔ first.continuesChain = true := by
  cases hcarries with
  | temporary hchain => simp [hchain]
  | bound hchain hsymbol hlookup => simp [hchain, hwell.ne_temporary_of_lookup? hlookup]
  | nothing hchain => simp [hchain]

theorem Carries.exists_symbol (hcarries : env.Carries first table (some identity))
    (htemporary : identity ≠ .temporary) :
    ∃ symbol, env.checker.symbolAt first.node = some symbol ∧
      table.lookup? symbol = some identity := by
  cases hcarries with
  | temporary => contradiction
  | bound hchain hsymbol hlookup => exact ⟨_, hsymbol, hlookup⟩

/-- Lowered identifiers have the same identity exactly when they are bound to the same symbol,
however they are written and whatever is lowered before, between and after them.  The identity is a
number from one upwards, and the table knows its symbol; only temporaries share theirs. -/
theorem identity_follows_symbol {start : UnitState} {calls : List LoweringCall}
    {word word' : Lua.Ident} (hstart : start.identities.Reachable)
    (hfirst : (.identifier first, .ok (.word word)) ∈ env.answers start calls)
    (hsecond : (.identifier second, .ok (.word word')) ∈ env.answers start calls) :
    (∀ identity identity', word.identity = some identity → word'.identity = some identity' →
      identity ≠ .temporary → identity' ≠ .temporary →
      (identity = identity' ↔
        ∃ symbol, env.checker.symbolAt first.node = some symbol ∧
          env.checker.symbolAt second.node = some symbol)) ∧
    (∀ identity, word.identity = some identity → identity ≠ .temporary →
      1 ≤ identity.number ∧
      ∃ symbol, env.checker.symbolAt first.node = some symbol ∧
        ((env.after start calls).identities.info? identity).map IdentityInfo.symbol =
          some symbol) ∧
    (word.identity = some .temporary ↔ first.continuesChain = true) := by
  have hwell := (env.gathers_after start calls).wellFormed_identities hstart.wellFormed
  have hcarries := carries_of_mem_answers hfirst
  have hcarries' := carries_of_mem_answers hsecond
  refine ⟨?_, ?_, hcarries.eq_temporary_iff hwell⟩
  · intro identity identity' hidentity hidentity' htemporary htemporary'
    rw [hidentity] at hcarries
    rw [hidentity'] at hcarries'
    obtain ⟨symbol, hsymbol, hlookup⟩ := hcarries.exists_symbol htemporary
    obtain ⟨symbol', hsymbol', hlookup'⟩ := hcarries'.exists_symbol htemporary'
    constructor
    · rintro rfl
      obtain rfl := hwell.eq_of_lookup? hlookup hlookup'
      exact ⟨symbol, hsymbol, hsymbol'⟩
    · rintro ⟨common, hcommon, hcommon'⟩
      rw [Option.some.inj (hsymbol.symm.trans hcommon)] at hlookup
      rw [Option.some.inj (hsymbol'.symm.trans hcommon')] at hlookup'
      exact Option.some.inj (hlookup.symm.trans hlookup')
  · intro identity hidentity htemporary
    rw [hidentity] at hcarries
    obtain ⟨symbol, hsymbol, hlookup⟩ := hcarries.exists_symbol htemporary
    have hpositive : identity.number ≠ 0 := fun hzero =>
      htemporary (identity.number_eq_zero_iff.mp hzero)
    exact ⟨Nat.one_le_iff_ne_zero.mpr hpositive, symbol, hsymbol,
      (hwell.lookup?_iff symbol identity).mp hlookup⟩

end Followed

/-- Two variables of one name, and a third one. -/
def shadowed : Environment :=
  ofProgram (Program.build
    [.file "main.ts" true, .declare ⟨0⟩ "value" {}, .scope ⟨0⟩ .function "f",
      .declare ⟨1⟩ "value" {}, .declare ⟨0⟩ "other" {}, .reference ⟨0⟩ "value",
      .reference ⟨1⟩ "value", .reference ⟨2⟩ "other"])

def outerValue : Identifier := { node := ⟨0⟩, text := "value", span := .ofLength 0 5 }

def innerValue : Identifier := { node := ⟨1⟩, text := "value", span := .ofLength 6 5 }

def otherName : Identifier := { node := ⟨2⟩, text := "other", span := .ofLength 12 5 }

def innerCall : Source.Expr := .call (.ident innerValue) [.ident otherName] innerValue.span

/-- With two identities to give, the call gets the second one and fails at its argument. -/
def shadowedCalls : List LoweringCall :=
  [.identifier outerValue, .expr innerCall, .identifier innerValue]

theorem identity_follows_symbol_shadowed :
    ∃ word error word',
      shadowed.answers { identities := .withLimit 2 } shadowedCalls =
        [(.identifier outerValue, .ok (.word word)), (.expr innerCall, .error error),
          (.identifier innerValue, .ok (.word word'))] ∧
      word.text = word'.text ∧ word.identity ≠ word'.identity := by
  obtain ⟨word, error, word', hanswers, htext, hidentity, hidentity'⟩ : ∃ word error word',
      shadowed.answers { identities := .withLimit 2 } shadowedCalls =
        [(.identifier outerValue, .ok (.word word)), (.expr innerCall, .error error),
          (.identifier innerValue, .ok (.word word'))] ∧
      word.text = word'.text ∧ word.identity = some ⟨1⟩ ∧ word'.identity = some ⟨2⟩ :=
    ⟨_, _, _, rfl, rfl, rfl, rfl⟩
  have hstart : (IdentityTable.withLimit 2).Reachable := ⟨2, [], rfl⟩
  have hfirst : (.identifier outerValue, .ok (.word word)) ∈
      shadowed.answers { identities := .withLimit 2 } shadowedCalls := by
    rw [hanswers]
    exact List.mem_cons_self
  have hsecond : (.identifier innerValue, .ok (.word word')) ∈
      shadowed.answers { identities := .withLimit 2 } shadowedCalls := by
    rw [hanswers]
    exact List.mem_cons_of_mem _ (List.mem_cons_of_mem _ List.mem_cons_self)
  refine ⟨word, error, word', hanswers, htext, ?_⟩
  intro hsame
  rw [hidentity, hidentity', Option.some.injEq] at hsame
  obtain ⟨symbol, ⟨⟩, hsymbol⟩ :=
    ((identity_follows_symbol hstart hfirst hsecond).1 _ _ hidentity hidentity' (by decide)
      (by decide)).mp hsame
  contradiction

end Environment

end LuaLowering
