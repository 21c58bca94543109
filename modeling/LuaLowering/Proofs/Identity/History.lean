import LuaLowering.Proofs.Identity.Table
import Mathlib.Data.List.Basic
import Mathlib.Data.List.Induction

namespace LuaLowering.IdentityTable

variable {table : IdentityTable} {symbol : Symbol} {identity : Identity}

/-! Many uses, one after the other.  A use that is refused leaves the table to the next one. -/

structure Use where
  symbol : Symbol
  span : Option Span

def after (table : IdentityTable) (uses : List Use) : IdentityTable :=
  uses.foldl (fun table use => (table.identify use.symbol use.span).2) table

/-- The answers to the uses, each beside its use. -/
def answers : IdentityTable → List Use → List (Use × Except LoweringError Identity)
  | _, [] => []
  | table, use :: rest =>
      (use, (table.identify use.symbol use.span).1) ::
        answers (table.identify use.symbol use.span).2 rest

variable {uses : List Use}

theorem after_append (table : IdentityTable) (uses more : List Use) :
    table.after (uses ++ more) = (table.after uses).after more :=
  List.foldl_append

theorem answers_append (table : IdentityTable) (uses more : List Use) :
    table.answers (uses ++ more) = table.answers uses ++ (table.after uses).answers more := by
  induction uses generalizing table with
  | nil => rfl
  | cons use uses ih => exact congrArg _ (ih _)

theorem extends_after (table : IdentityTable) (uses : List Use) :
    table.Extends (table.after uses) := by
  induction uses generalizing table with
  | nil => exact .refl table
  | cons use uses ih => exact (Extends.of_identifies (table.identifies _ _)).trans (ih _)

theorem WellFormed.after (hwell : table.WellFormed) (uses : List Use) :
    (table.after uses).WellFormed := by
  induction uses generalizing table with
  | nil => exact hwell
  | cons use uses ih => exact ih ((table.identifies _ _).wellFormed hwell)

/-! All answers can be read off the last table, since a table that has refused a symbol is full and
changes no more. -/

theorem after_of_full (hfull : table.limit ≤ table.allocated) (uses : List Use) :
    table.after uses = table := by
  induction uses with
  | nil => rfl
  | cons use uses ih =>
      have hsame := (table.identifies use.symbol use.span).eq_of_full hfull
      exact (congrArg (IdentityTable.after · uses) hsame).trans ih

/-- The answer of a table to a symbol, if it gives no more identities. -/
def settled (table : IdentityTable) (symbol : Symbol) : Except LoweringError Identity :=
  match table.lookup? symbol with
  | some identity => .ok identity
  | none => .error (.identitiesExhausted table.allocated)

theorem settled_eq_ok_iff :
    table.settled symbol = .ok identity ↔ table.lookup? symbol = some identity := by
  unfold settled
  cases table.lookup? symbol <;> simp

theorem Identifies.eq_settled {firstSeen : Option Span}
    {answer : Except LoweringError Identity} {next : IdentityTable}
    (hstep : Identifies table symbol firstSeen (answer, next)) (more : List Use) :
    answer = (next.after more).settled symbol := by
  cases answer with
  | ok identity =>
      have hlookup := (next.extends_after more).lookup?_eq hstep.lookup?_eq
      exact (settled_eq_ok_iff.mpr hlookup).symm
  | error error =>
      cases hstep with
      | refused hnew hfull => rw [after_of_full hfull, settled, hnew]

theorem answer_eq_settled {call : Use × Except LoweringError Identity}
    (hmem : call ∈ table.answers uses) :
    call.2 = (table.after uses).settled call.1.symbol := by
  induction uses generalizing table with
  | nil => cases hmem
  | cons use uses ih =>
      rcases List.mem_cons.mp hmem with rfl | hrest
      · exact (table.identifies use.symbol use.span).eq_settled uses
      · exact ih hrest

theorem answer_eq_ok_iff {call : Use × Except LoweringError Identity}
    (hmem : call ∈ table.answers uses) :
    call.2 = .ok identity ↔ (table.after uses).lookup? call.1.symbol = some identity := by
  rw [answer_eq_settled hmem, settled_eq_ok_iff]

theorem WellFormed.answer_eq_iff (hwell : table.WellFormed)
    {call other : Use × Except LoweringError Identity} (hcall : call ∈ table.answers uses)
    (hother : other ∈ table.answers uses) (hgranted : call.2 = .ok identity) :
    other.2 = .ok identity ↔ other.1.symbol = call.1.symbol := by
  rw [answer_eq_ok_iff hcall] at hgranted
  rw [answer_eq_ok_iff hother]
  constructor
  · intro hlookup
    exact (hwell.after uses).eq_of_lookup? hlookup hgranted
  · intro hsymbol
    rw [hsymbol, hgranted]

/-! Identities follow the order of first uses. -/

theorem eraseDups_concat {α : Type} [DecidableEq α] (xs : List α) (x : α) :
    (xs ++ [x]).eraseDups = if x ∈ xs then xs.eraseDups else xs.eraseDups ++ [x] := by
  rw [List.eraseDups_append]
  by_cases hmem : x ∈ xs <;> simp [List.removeAll, hmem, List.eraseDups_cons]

/-- The symbols that are used, in the order of their first uses. -/
def firstUsed (uses : List Use) : List Symbol := (uses.map Use.symbol).eraseDups

theorem mem_firstUsed : symbol ∈ firstUsed uses ↔ symbol ∈ uses.map Use.symbol :=
  List.mem_eraseDups

theorem firstUsed_concat (uses : List Use) (use : Use) :
    firstUsed (uses ++ [use]) =
      if use.symbol ∈ firstUsed uses then firstUsed uses
      else firstUsed uses ++ [use.symbol] := by
  simp only [mem_firstUsed]
  rw [firstUsed, List.map_append, List.map_singleton, eraseDups_concat, firstUsed]

/-- The identities that were given or given again. -/
def granted (answers : List (Use × Except LoweringError Identity)) : List Identity :=
  answers.filterMap fun call => call.2.toOption

@[simp] theorem granted_concat_ok (calls : List (Use × Except LoweringError Identity)) (use : Use)
    (identity : Identity) :
    granted (calls ++ [(use, .ok identity)]) = granted calls ++ [identity] := by
  simp [granted, Except.toOption]

@[simp] theorem granted_concat_error (calls : List (Use × Except LoweringError Identity))
    (use : Use) (error : LoweringError) :
    granted (calls ++ [(use, .error error)]) = granted calls := by
  simp [granted, Except.toOption]

/-- The uses of a table, with their answers and the table that they lead to, one step after the
other. -/
inductive History (limit : UInt32) :
    List Use → List (Use × Except LoweringError Identity) → IdentityTable → Prop
  | start : History limit [] [] (withLimit limit)
  | use {uses : List Use} {calls : List (Use × Except LoweringError Identity)}
      {table next : IdentityTable} {use : Use} {answer : Except LoweringError Identity}
      (hhistory : History limit uses calls table)
      (hstep : Identifies table use.symbol use.span (answer, next)) :
      History limit (uses ++ [use]) (calls ++ [(use, answer)]) next

theorem history_after (limit : UInt32) (uses : List Use) :
    History limit uses ((withLimit limit).answers uses) ((withLimit limit).after uses) := by
  induction uses using List.reverseRecOn with
  | nil => exact .start
  | append_singleton uses use ih =>
      rw [after_append, answers_append]
      exact .use ih (identifies _ use.symbol use.span)

namespace History

variable {limit : UInt32} {calls : List (Use × Except LoweringError Identity)}

theorem limit_eq (hhistory : History limit uses calls table) : table.limit = limit := by
  induction hhistory with
  | start => rfl
  | use _ hstep ih => exact (Extends.of_identifies hstep).limit_eq.trans ih

theorem wellFormed (hhistory : History limit uses calls table) : table.WellFormed := by
  induction hhistory with
  | start => exact wellFormed_withLimit limit
  | use _ hstep ih => exact hstep.wellFormed ih

/-- A table that is not full has met no other symbols than its own. -/
theorem firstUsed_eq_of_room (hroom : table.size < limit.toNat)
    (hsymbols : table.symbols = (firstUsed uses).take limit.toNat) :
    firstUsed uses = table.symbols := by
  have hlength := table.length_symbols
  rw [hsymbols, List.length_take] at hlength
  rw [hsymbols, List.take_of_length_le (by omega)]

theorem symbols_eq (hhistory : History limit uses calls table) :
    table.symbols = (firstUsed uses).take limit.toNat := by
  induction hhistory with
  | start => simp [withLimit, symbols, firstUsed]
  | @use uses calls table next use answer hhistory hstep ih =>
      have hwell := hhistory.wellFormed
      have hlimit := hhistory.limit_eq
      rw [firstUsed_concat]
      cases hstep with
      | known hknown =>
          have hmem := hwell.mem_symbols_iff.mpr ⟨_, hknown⟩
          rw [ih] at hmem
          rw [if_pos (List.mem_of_mem_take hmem), ih]
      | refused hnew hfull =>
          have hlength := table.length_symbols
          rw [ih, List.length_take, hwell.limit_le_allocated_iff.mp hfull, hlimit] at hlength
          split
          · exact ih
          · rw [List.take_append_of_le_length (by omega), ih]
      | fresh hnew hroom =>
          have hsize := hwell.size_lt_limit hroom
          rw [hlimit] at hsize
          have hall := firstUsed_eq_of_room hsize ih
          have hmem : use.symbol ∉ table.symbols := by
            rw [hwell.mem_symbols_iff, hnew]
            simp
          have hlength := table.length_symbols
          rw [hall, if_neg hmem, List.take_of_length_le (by simp; omega)]
          exact List.map_append

theorem find?_eq (hhistory : History limit uses calls table) {info : IdentityInfo}
    (hmem : info ∈ table.infos) :
    uses.find? (fun use => use.symbol = info.symbol) = some ⟨info.symbol, info.firstSeen⟩ := by
  induction hhistory with
  | start => cases hmem
  | @use uses calls table next use answer hhistory hstep ih =>
      rw [List.find?_append]
      cases hstep with
      | known => rw [ih hmem, Option.some_or]
      | refused => rw [ih hmem, Option.some_or]
      | fresh hnew hroom =>
          rcases List.mem_append.mp hmem with hold | hlast
          · rw [ih hold, Option.some_or]
          · obtain rfl := List.mem_singleton.mp hlast
            have hsize := hhistory.wellFormed.size_lt_limit hroom
            have hfresh : use.symbol ∉ uses.map Use.symbol := by
              rw [hhistory.limit_eq] at hsize
              rw [← mem_firstUsed, firstUsed_eq_of_room hsize hhistory.symbols_eq,
                hhistory.wellFormed.mem_symbols_iff, hnew]
              simp
            have hnone : uses.find? (fun other => other.symbol = use.symbol) = none := by
              rw [List.find?_eq_none]
              intro other hother hsymbol
              exact hfresh (List.mem_map.mpr ⟨other, hother, of_decide_eq_true hsymbol⟩)
            rw [hnone, Option.none_or]
            simp

theorem mem_granted_iff
    (hgranted : (granted calls).eraseDups.map Identity.number = List.range' 1 table.size) :
    identity ∈ granted calls ↔ (table.info? identity).isSome := by
  have hinjective : Function.Injective Identity.number := fun _ _ => Identity.number_injective
  rw [isSome_info?_iff, ← List.mem_eraseDups, ← List.mem_map_of_injective hinjective, hgranted,
    List.mem_range'_1]
  omega

theorem granted_eq (hhistory : History limit uses calls table) :
    (granted calls).eraseDups.map Identity.number = List.range' 1 table.size := by
  induction hhistory with
  | start => rfl
  | @use uses calls table next use answer hhistory hstep ih =>
      have hwell := hhistory.wellFormed
      cases hstep with
      | @known identity hknown =>
          have hinfo : (table.info? identity).isSome := by
            rw [← Option.isSome_map, (hwell.lookup?_iff _ _).mp hknown]
            rfl
          rw [granted_concat_ok, eraseDups_concat, if_pos ((mem_granted_iff ih).mpr hinfo), ih]
      | refused => rw [granted_concat_error, ih]
      | fresh hnew hroom =>
          have hnext := hwell.number_next (hwell.size_lt_limit hroom)
          have hmem : table.next ∉ granted calls := by
            rw [mem_granted_iff ih, info?_next hnext]
            simp
          rw [granted_concat_ok, eraseDups_concat, if_neg hmem, List.map_append, ih, size_add,
            List.range'_concat, List.map_singleton, hnext]
          simp [Nat.add_comm]

end History

/-- The identities of a table are the numbers from one upwards, in the order in which their symbols
are first used.  A symbol keeps its identity and the place of its first use; a use fails exactly
when its symbol is new and the limit is reached, and then changes nothing. -/
theorem identities_follow_first_uses (limit : UInt32) (uses : List Use) :
    let calls := (withLimit limit).answers uses
    let table := (withLimit limit).after uses
    ((granted calls).eraseDups.map Identity.number = List.range' 1 table.size ∧
      table.symbols = (firstUsed uses).take limit.toNat ∧
      Identity.temporary ∉ granted calls) ∧
    (∀ call ∈ calls, ∀ identity,
      call.2 = .ok identity ↔ table.lookup? call.1.symbol = some identity) ∧
    (∀ call ∈ calls, ∀ other ∈ calls, ∀ identity, call.2 = .ok identity →
      (other.2 = .ok identity ↔ other.1.symbol = call.1.symbol)) ∧
    (∀ symbol identity, table.lookup? symbol = some identity ↔
      (table.info? identity).map IdentityInfo.symbol = some symbol) ∧
    (∀ identity info, table.info? identity = some info →
      uses.find? (fun use => use.symbol = info.symbol) = some ⟨info.symbol, info.firstSeen⟩ ∧
      ∀ more, (table.after more).info? identity = some info) ∧
    (∀ identity, (table.info? identity).isSome ↔
      1 ≤ identity.number ∧ identity.number ≤ table.size) ∧
    (∀ symbol firstSeen error next,
      table.identify symbol firstSeen = (.error error, next) ↔
        (table.lookup? symbol = none ∧ table.size = limit.toNat) ∧
          error = .identitiesExhausted limit ∧ next = table) ∧
    table.size ≤ limit.toNat ∧ table.allocated.toNat = table.size ∧
    (table.size < limit.toNat → table.next.number = table.size + 1) := by
  intro calls table
  have hhistory : History limit uses calls table := history_after limit uses
  have hwell := hhistory.wellFormed
  have hlimit := hhistory.limit_eq
  have htemporary : Identity.temporary ∉ granted calls := by
    rw [History.mem_granted_iff hhistory.granted_eq]
    simp [info?, Identity.isTemporary]
  refine ⟨⟨hhistory.granted_eq, hhistory.symbols_eq, htemporary⟩,
    fun _ hcall _ => answer_eq_ok_iff hcall, ?_, hwell.lookup?_iff, ?_,
    fun _ => isSome_info?_iff, ?_, ?_, hwell.number_allocated, ?_⟩
  · intro call hcall other hother identity
    exact (wellFormed_withLimit limit).answer_eq_iff hcall hother
  · intro identity info hinfo
    have hmem := hwell.mem_infos_iff.mpr ⟨identity, hinfo⟩
    exact ⟨hhistory.find?_eq hmem, fun more => (extends_after table more).info?_eq hinfo⟩
  · intro symbol firstSeen error next
    rw [← hlimit]
    exact (table.identifies symbol firstSeen).error_iff hwell error next
  · rw [← hlimit]
    exact hwell.size_le
  · rw [← hlimit]
    exact hwell.number_next

example :
    ((withLimit 2).answers
      [⟨⟨7⟩, none⟩, ⟨⟨3⟩, none⟩, ⟨⟨7⟩, none⟩, ⟨⟨5⟩, none⟩, ⟨⟨3⟩, none⟩]).map Prod.snd =
      [.ok ⟨1⟩, .ok ⟨2⟩, .ok ⟨1⟩, .error (.identitiesExhausted 2), .ok ⟨2⟩] := rfl

/-- A table that some uses lead to. -/
def Reachable (table : IdentityTable) : Prop :=
  ∃ limit uses, table = (withLimit limit).after uses

theorem Reachable.wellFormed (hreachable : table.Reachable) : table.WellFormed := by
  obtain ⟨limit, uses, rfl⟩ := hreachable
  exact (wellFormed_withLimit limit).after uses

end LuaLowering.IdentityTable
